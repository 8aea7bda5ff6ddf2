import Overseer.Decimal.Nearest
import Overseer.Text.Hex
import Overseer.Toml.Value

/-!
TOML strings, numbers, dates and keys.

Each reader takes its value off the head of a text and gives what follows, or refuses. Integers must
fit 64 bits; a positive real must be finite unless it is written `inf`; a date must be one of the
calendar.
-/

namespace Overseer.Toml

/-- What was read, and the rest of the text. -/
@[reducible] def Reading (α : Type) : Type := Option (α × List Char)

/-- Spaces and tabs. -/
def isSpace (c : Char) : Bool := c = ' ' ∨ c = '\t'

def skipSpaces (text : List Char) : List Char := text.dropWhile isSpace

/-- One line break. -/
def readNewline : List Char → Option (List Char)
  | '\n' :: rest => some rest
  | '\r' :: '\n' :: rest => some rest
  | _ => none

/-- A character that a comment or a literal string may hold: a tab or no ASCII control. -/
def isPlain (c : Char) : Bool := c = '\t' ∨ (0x20 ≤ c.toNat ∧ c.toNat ≠ 0x7F)

/-- The rest after a comment, if there is one. -/
def skipComment : List Char → List Char
  | '#' :: rest => rest.dropWhile isPlain
  | rest => rest

/-! ### Strings -/

/-- The character with a code point written in hexadecimal digits. -/
def scalar? (digits : List Char) : Option Char :=
  (Text.Hex.read digits).bind fun n => if h : n.isValidChar then some (Char.ofNatAux n h) else none

/-- The character of a backslash escape, and what follows it. -/
def readEscape : List Char → Reading Char
  | 'b' :: rest => some ('\x08', rest)
  | 't' :: rest => some ('\t', rest)
  | 'n' :: rest => some ('\n', rest)
  | 'f' :: rest => some ('\x0c', rest)
  | 'r' :: rest => some ('\r', rest)
  | '"' :: rest => some ('"', rest)
  | '\\' :: rest => some ('\\', rest)
  | 'u' :: rest =>
    if (rest.take 4).length = 4 then (scalar? (rest.take 4)).map (·, rest.drop 4) else none
  | 'U' :: rest =>
    if (rest.take 8).length = 8 then (scalar? (rest.take 8)).map (·, rest.drop 8) else none
  | _ => none

/-- A one-line string after its opening quote; `room` bounds its length. -/
def readBasic : Nat → List Char → Reading (List Char)
  | 0, _ => none
  | room + 1, text =>
    match text with
    | '"' :: rest => some ([], rest)
    | '\\' :: rest =>
      (readEscape rest).bind fun (c, rest) =>
        (readBasic room rest).map fun (cs, rest) => (c :: cs, rest)
    | c :: rest =>
      if isPlain c then (readBasic room rest).map fun (cs, rest) => (c :: cs, rest) else none
    | [] => none

/-- A one-line string without escapes, after its opening quote. -/
def readLiteral : List Char → Reading (List Char)
  | [] => none
  | '\'' :: rest => some ([], rest)
  | c :: rest =>
    if isPlain c then (readLiteral rest).map fun (cs, rest) => (c :: cs, rest) else none

/-- Skips blanks and line breaks. -/
def skipBlank : List Char → List Char
  | '\r' :: '\n' :: rest => skipBlank rest
  | c :: rest => if isSpace c ∨ c = '\n' then skipBlank rest else c :: rest
  | [] => []

/-- The count of quotes at the head of a text. -/
def quoteRun (quote : Char) (text : List Char) : Nat := (text.takeWhile (· = quote)).length

/-- A string over several lines after its opening quotes; `room` bounds its length. One or two
quotes belong to the text, also right before the three that close it. A backslash at the end of a
line joins it to the next word. -/
def readLong (quote : Char) : Nat → List Char → Reading (List Char)
  | 0, _ => none
  | room + 1, text =>
    match text with
    | [] => none
    | c :: rest =>
      if c = quote then
        let run := quoteRun quote text
        if run < 3 then
          (readLong quote room (text.drop run)).map fun (cs, rest) =>
            (List.replicate run quote ++ cs, rest)
        else
          let kept := min (run - 3) 2
          some (List.replicate kept quote, text.drop (kept + 3))
      else if c = '\\' ∧ quote = '"' then
        match readNewline (skipSpaces rest) with
        | some next => readLong quote room (skipBlank next)
        | none =>
          (readEscape rest).bind fun (c, rest) =>
            (readLong quote room rest).map fun (cs, rest) => (c :: cs, rest)
      else
        match readNewline text with
        | some next => (readLong quote room next).map fun (cs, rest) => ('\n' :: cs, rest)
        | none =>
          if isPlain c then (readLong quote room rest).map fun (cs, rest) => (c :: cs, rest)
          else none

/-- A text without the line break at its head, if it has one. -/
def dropNewline (text : List Char) : List Char := (readNewline text).getD text

/-- A string of any of the four kinds. -/
def readString (text : List Char) : Reading (List Char) :=
  match text with
  | '"' :: '"' :: '"' :: rest => readLong '"' (rest.length + 1) (dropNewline rest)
  | '\'' :: '\'' :: '\'' :: rest => readLong '\'' (rest.length + 1) (dropNewline rest)
  | '"' :: rest => readBasic (rest.length + 1) rest
  | '\'' :: rest => readLiteral rest
  | _ => none

/-! ### Keys -/

/-- A character of an unquoted key. -/
def isBare (c : Char) : Bool := c.isAlphanum ∨ c = '-' ∨ c = '_'

/-- One part of a key: unquoted, or a one-line string. -/
def readSimpleKey (text : List Char) : Reading String :=
  match text with
  | '"' :: rest =>
    (readBasic (rest.length + 1) rest).map fun (cs, rest) => (String.ofList cs, rest)
  | '\'' :: rest => (readLiteral rest).map fun (cs, rest) => (String.ofList cs, rest)
  | text =>
    match text.takeWhile isBare with
    | [] => none
    | cs => some (String.ofList cs, text.dropWhile isBare)

/-- The parts of a key, joined by points with spaces around them; `room` bounds their count. -/
def readKey : Nat → List Char → Reading (List String)
  | 0, _ => none
  | room + 1, text =>
    (readSimpleKey (skipSpaces text)).bind fun (part, rest) =>
      match skipSpaces rest with
      | '.' :: rest => (readKey room rest).map fun (parts, rest) => (part :: parts, rest)
      | rest => some ([part], rest)

/-- Tables and arrays are nested less deep than this, and keys have fewer parts. -/
def nestingLimit : Nat := 80

/-! ### Numbers -/

/-- The value of a digit in a base up to sixteen. -/
def digitIn? (base : Nat) (c : Char) : Option Nat :=
  (Text.Hex.value? c).bind fun d => if d < base then some d else none

/-- Further digits, with single underscores between digits. Gives the value, the count of digits and
the rest. -/
def readMore (base : Nat) (value count : Nat) : List Char → Nat × Nat × List Char
  | [] => (value, count, [])
  | '_' :: c :: rest =>
    match digitIn? base c with
    | some d => readMore base (base * value + d) (count + 1) rest
    | none => (value, count, '_' :: c :: rest)
  | c :: rest =>
    match digitIn? base c with
    | some d => readMore base (base * value + d) (count + 1) rest
    | none => (value, count, c :: rest)

/-- At least one digit, then more. -/
def readDigits (base : Nat) : List Char → Option (Nat × Nat × List Char)
  | c :: rest => (digitIn? base c).map fun d => readMore base d 1 rest
  | [] => none

/-- An optional sign: whether it is a minus, and the rest. -/
def readSign : List Char → Bool × List Char
  | '-' :: rest => (true, rest)
  | '+' :: rest => (false, rest)
  | rest => (false, rest)

/-- Decimal digits without a leading zero. -/
def readWhole : List Char → Option (Nat × Nat × List Char)
  | '0' :: rest => some (0, 1, rest)
  | rest => readDigits 10 rest

/-- A number in the range of 64 bits with a sign. -/
def fitting (negative : Bool) (n : Nat) : Option Int :=
  if negative then if n ≤ 0x8000000000000000 then some (-n) else none
  else if n < 0x8000000000000000 then some n else none

/-- An integer; other bases than ten have no sign. -/
def readInteger (text : List Char) : Reading Int :=
  let based (base : Nat) (rest : List Char) : Reading Int :=
    (readDigits base rest).bind fun (n, _, rest) => (fitting false n).map (·, rest)
  match text with
  | '0' :: 'x' :: rest => based 16 rest
  | '0' :: 'o' :: rest => based 8 rest
  | '0' :: 'b' :: rest => based 2 rest
  | text =>
    let (negative, rest) := readSign text
    (readWhole rest).bind fun (n, _, rest) => (fitting negative n).map (·, rest)

/-- An exponent after its mark. -/
def readPower (text : List Char) : Reading Int :=
  let (negative, rest) := readSign text
  (readDigits 10 rest).map fun (n, _, rest) => (if negative then -(n : Int) else n, rest)

/-- A real from its parts, refused if it is the positive infinity. -/
def finite (negative : Bool) (digits : Nat) (exponent : Int) (rest : List Char) : Reading Float :=
  let x := Decimal.nearest negative ⟨digits, exponent⟩
  if x == Decimal.infinity then none else some (x, rest)

/-- A real: a whole part with a fraction, an exponent or both, or a word. -/
def readReal (text : List Char) : Reading Float :=
  let (negative, rest) := readSign text
  match rest with
  | 'i' :: 'n' :: 'f' :: rest =>
    some (if negative then -Decimal.infinity else Decimal.infinity, rest)
  | 'n' :: 'a' :: 'n' :: rest => some (0.0 / 0.0, rest)
  | rest =>
    (readWhole rest).bind fun (whole, _, rest) =>
      match rest with
      | '.' :: rest =>
        (readDigits 10 rest).bind fun (fraction, places, rest) =>
          let digits := whole * Nat.pow 10 places + fraction
          match rest with
          | 'e' :: power | 'E' :: power =>
            (readPower power).bind fun (p, rest) => finite negative digits (p - places) rest
          | rest => finite negative digits (-places) rest
      | 'e' :: power | 'E' :: power =>
        (readPower power).bind fun (p, rest) => finite negative whole p rest
      | _ => none

/-! ### Dates and times -/

/-- A number of exactly `places` decimal digits within bounds. -/
def readField (places low high : Nat) (text : List Char) : Reading Nat :=
  let digits := text.take places
  if digits.length = places then
    (Decimal.ofDigits? digits).bind fun n =>
      if low ≤ n ∧ n ≤ high then some (n, text.drop places) else none
  else none

/-- A given character. -/
def readChar (expected : Char) : List Char → Option (List Char)
  | c :: rest => if c = expected then some rest else none
  | [] => none

def isLeapYear (year : Nat) : Bool :=
  year % 4 = 0 ∧ (year % 100 ≠ 0 ∨ year % 400 = 0)

/-- The number of days of a month. -/
def daysIn (year month : Nat) : Nat :=
  if month = 2 then if isLeapYear year then 29 else 28
  else if month = 4 ∨ month = 6 ∨ month = 9 ∨ month = 11 then 30
  else 31

/-- A day of the calendar. -/
def readDate (text : List Char) : Option (List Char) := do
  let (year, rest) ← readField 4 0 9999 text
  let rest ← readChar '-' rest
  let (month, rest) ← readField 2 1 12 rest
  let rest ← readChar '-' rest
  let (_, rest) ← readField 2 1 (daysIn year month) rest
  return rest

/-- A time of day; a leap second is a time too. -/
def readTime (text : List Char) : Option (List Char) := do
  let (_, rest) ← readField 2 0 23 text
  let rest ← readChar ':' rest
  let (_, rest) ← readField 2 0 59 rest
  let rest ← readChar ':' rest
  let (_, rest) ← readField 2 0 60 rest
  match rest with
  | '.' :: c :: rest =>
    if (Decimal.digitValue? c).isSome then
      return rest.dropWhile fun c => (Decimal.digitValue? c).isSome
    else none
  | '.' :: [] => none
  | rest => return rest

/-- The offset from universal time. -/
def readOffset (text : List Char) : Option (List Char) :=
  match text with
  | 'Z' :: rest | 'z' :: rest => some rest
  | '+' :: rest | '-' :: rest => do
    let (_, rest) ← readField 2 0 23 rest
    let rest ← readChar ':' rest
    let (_, rest) ← readField 2 0 59 rest
    return rest
  | _ => none

/-- The offset at the head of a text is optional, but one that is begun must be complete. -/
def readOffset? (text : List Char) : Option (List Char) :=
  match text with
  | 'Z' :: _ | 'z' :: _ | '+' :: _ | '-' :: _ => readOffset text
  | text => some text

/-- A time begins here: two digits and a colon. -/
def startsTime : List Char → Bool
  | a :: b :: ':' :: _ => (Decimal.digitValue? a).isSome && (Decimal.digitValue? b).isSome
  | _ => false

/-- A date, a time, or both with an optional offset. -/
def readDatetime (text : List Char) : Option (List Char) :=
  if startsTime text then readTime text
  else
    (readDate text).bind fun rest =>
      match rest with
      | 'T' :: time | 't' :: time | ' ' :: time =>
        if startsTime time then (readTime time).bind readOffset? else some rest
      | rest => some rest

/-- A date or a time is begun here: four digits and a dash, or two digits and a colon. -/
def startsDatetime (text : List Char) : Bool :=
  let digits := text.takeWhile fun c => (Decimal.digitValue? c).isSome
  (digits.length = 4 && (text.drop 4).head? = some '-') || startsTime text

end Overseer.Toml
