/-!
Points in time, and their text.

A timestamp counts nanoseconds since the start of 1970 in universal time. Its text has the date, the
time of day with the fraction in groups of three digits as far as they are needed, and the offset.
-/

namespace Overseer

/-- Nanoseconds since the start of 1970. -/
structure Timestamp where
  nanos : Nat
deriving DecidableEq, Repr

namespace Timestamp

/-- A day of the Gregorian calendar. -/
structure Date where
  year : Nat
  month : Nat
  day : Nat
deriving DecidableEq, Repr

/-- The date of a day counted from the start of 1970. Years are counted from March, so that the leap
day is the last of its year; 400 years have 146097 days. -/
def Date.ofDays (days : Nat) : Date :=
  let shifted := days + 719468
  let era := shifted / 146097
  let dayOfEra := shifted % 146097
  let yearOfEra := (dayOfEra - dayOfEra / 1460 + dayOfEra / 36524 - dayOfEra / 146096) / 365
  let dayOfYear := dayOfEra - (365 * yearOfEra + yearOfEra / 4 - yearOfEra / 100)
  let monthFromMarch := (5 * dayOfYear + 2) / 153
  let day := dayOfYear - (153 * monthFromMarch + 2) / 5 + 1
  let month := if monthFromMarch < 10 then monthFromMarch + 3 else monthFromMarch - 9
  let year := yearOfEra + 400 * era + (if month ≤ 2 then 1 else 0)
  ⟨year, month, day⟩

/-- The lowest `places` decimal digits of a number. -/
def places : Nat → Nat → List Char
  | 0, _ => []
  | count + 1, n => places count (n / 10) ++ [Char.ofNat (48 + n % 10)]

/-- The fraction of a second, if there is one. -/
def fractionText (nanos : Nat) : List Char :=
  if nanos = 0 then []
  else if nanos % 1000000 = 0 then '.' :: places 3 (nanos / 1000000)
  else if nanos % 1000 = 0 then '.' :: places 6 (nanos / 1000)
  else '.' :: places 9 nanos

/-- A year in four digits. Later years have more, and then a sign. -/
def yearText (year : Nat) : List Char :=
  if year < 10000 then places 4 year else '+' :: Nat.toDigits 10 year

/-- The text of a timestamp. -/
def text (t : Timestamp) : String :=
  let seconds := t.nanos / 1000000000
  let date := Date.ofDays (seconds / 86400)
  String.ofList (yearText date.year ++ '-' :: places 2 date.month ++ '-' :: places 2 date.day
    ++ 'T' :: places 2 (seconds / 3600 % 24) ++ ':' :: places 2 (seconds / 60 % 60)
    ++ ':' :: places 2 (seconds % 60) ++ fractionText (t.nanos % 1000000000)
    ++ ['+', '0', '0', ':', '0', '0'])

end Timestamp

end Overseer
