import Overseer.Decimal.Nearest
import Overseer.Json.Value
import Overseer.Text.Symbol

/-!
JSON number text.

Written: whole numbers in decimal digits; reals with the fewest digits that read back, positionally
for exponents from -5 up to 15 and with `.0` where there is no fraction, in exponent form elsewhere.

Read: digits are gathered into a significand below 2 ^ 64. Further whole digits only raise the
exponent and further fraction digits are dropped; the significand, as a double, is then multiplied
or divided by a power of ten. This is not the nearest double in every case, and the values that a
worker and a supervisor agree on depend on it.
-/

namespace Overseer.Json

open Overseer.Text (Symbol)

/-! ### Written numbers -/

/-- Decimal digits of a number. -/
def digitsOf (n : Nat) : List Char := Nat.toDigits 10 n

/-- An exponent with its sign. -/
def exponentText (e : Int) : List Char :=
  if e < 0 then '-' :: digitsOf (-e).toNat else '+' :: digitsOf e.toNat

/-- A positive decimal: `point` is the place of the decimal point counted from the first digit. -/
def scientificText (s : Decimal.Scientific) : List Char :=
  let digits := digitsOf s.digits
  let point : Int := digits.length + s.exponent
  if 0 ≤ s.exponent ∧ point ≤ 16 then
    digits ++ List.replicate s.exponent.toNat '0' ++ ['.', '0']
  else if 0 < point ∧ point ≤ 16 then
    digits.take point.toNat ++ '.' :: digits.drop point.toNat
  else if -5 < point ∧ point ≤ 0 then
    '0' :: '.' :: List.replicate (-point).toNat '0' ++ digits
  else
    match digits with
    | [d] => d :: 'e' :: exponentText (point - 1)
    | d :: rest => d :: '.' :: rest ++ 'e' :: exponentText (point - 1)
    | [] => []

/-- A finite real. -/
def realText (x : Float) : List Char :=
  let bits := x.toBits
  let magnitude := Decimal.Binary.ofBits bits
  let text :=
    if magnitude.significand = 0 then ['0', '.', '0']
    else scientificText (Decimal.shortest magnitude)
  if bits.toNat / 0x8000000000000000 = 1 then '-' :: text else text

/-- The text of a number. -/
def Number.text : Number → List Char
  | .natural n => digitsOf n
  | .negative n => '-' :: digitsOf n
  | .real x => realText x
  | .outOfRange => ['n', 'u', 'l', 'l']

/-! ### Read numbers -/

/-- The value of a digit. -/
def symbolDigit? : Symbol → Option Nat
  | .char c => Decimal.digitValue? c
  | .stray _ => none

/-- Whole digits: the significand, the count of digits left out of it, and the rest. -/
def readWhole (significand dropped : Nat) : List Symbol → Nat × Nat × List Symbol
  | [] => (significand, dropped, [])
  | s :: rest =>
    match symbolDigit? s with
    | none => (significand, dropped, s :: rest)
    | some d =>
      if dropped = 0 ∧ 10 * significand + d < UInt64.size then
        readWhole (10 * significand + d) 0 rest
      else readWhole significand (dropped + 1) rest

/-- Fraction digits: the significand, the count of places in it, and the rest; once a digit does not
fit, it and all that follow are dropped. -/
def readFraction (significand places : Nat) (full : Bool) : List Symbol → Nat × Nat × List Symbol
  | [] => (significand, places, [])
  | s :: rest =>
    match symbolDigit? s with
    | none => (significand, places, s :: rest)
    | some d =>
      if !full ∧ 10 * significand + d < UInt64.size then
        readFraction (10 * significand + d) (places + 1) false rest
      else readFraction significand places true rest

/-- All digits of an exponent. -/
def readPower (n : Nat) : List Symbol → Nat × List Symbol
  | [] => (n, [])
  | s :: rest =>
    match symbolDigit? s with
    | none => (n, s :: rest)
    | some d => readPower (10 * n + d) rest

/-- At least one digit comes next. -/
def startsWithDigit : List Symbol → Bool
  | s :: _ => (symbolDigit? s).isSome
  | [] => false

/-- The exponent after its mark: an optional sign and at least one digit. -/
def readSignedPower (text : List Symbol) : Option (Int × List Symbol) :=
  let (negative, digits) : Bool × List Symbol :=
    match text with
    | .char '-' :: rest => (true, rest)
    | .char '+' :: rest => (false, rest)
    | rest => (false, rest)
  if startsWithDigit digits then
    let (n, rest) := readPower 0 digits
    some (if negative then -(n : Int) else n, rest)
  else none

/-- The power `10 ^ n` as a double. -/
def powerOfTen (n : Nat) : Float := Float.ofScientific 1 false n

/-- A double times a power of ten; `none` beyond the largest double. -/
def scale (x : Float) (exponent : Int) : Option Float :=
  if exponent.natAbs ≤ 308 then
    if 0 ≤ exponent then
      let y := x * powerOfTen exponent.natAbs
      if y.isInf then none else some y
    else some (x / powerOfTen exponent.natAbs)
  else if x == 0.0 then some x
  else if 0 ≤ exponent then none
  else scale (x / powerOfTen 308) (exponent + 308)
termination_by exponent.natAbs
decreasing_by omega

/-- The real with a significand and an exponent. -/
def realOfParts (negative : Bool) (significand : Nat) (exponent : Int) : Number :=
  match scale significand.toUInt64.toFloat exponent with
  | none => .outOfRange
  | some x => .real (if negative then -x else x)

/-- A whole number; minus zero is real, as is what no integer kind can hold. -/
def wholeNumber (negative : Bool) (n : Nat) : Number :=
  if negative then
    if 0 < n ∧ n ≤ 0x8000000000000000 then .negative n else .real (-n.toUInt64.toFloat)
  else .natural n

/-- A number after its sign: one zero or digits without a leading zero, then optionally a point with
at least one digit, then optionally an exponent. -/
def readUnsigned (negative : Bool) (text : List Symbol) : Option (Number × List Symbol) :=
  if startsWithDigit text then
    let (significand, dropped, rest) : Nat × Nat × List Symbol :=
      match text with
      | .char '0' :: rest => (0, 0, rest)
      | text => readWhole 0 0 text
    match rest with
    | .char '.' :: fraction =>
      if startsWithDigit fraction then
        let (significand, places, rest) := readFraction significand 0 false fraction
        let exponent : Int := (dropped : Int) - places
        match rest with
        | .char 'e' :: power | .char 'E' :: power =>
          (readSignedPower power).map fun (p, rest) =>
            (realOfParts negative significand (exponent + p), rest)
        | rest => some (realOfParts negative significand exponent, rest)
      else none
    | .char 'e' :: power | .char 'E' :: power =>
      (readSignedPower power).map fun (p, rest) =>
        (realOfParts negative significand (dropped + p), rest)
    | rest =>
      if dropped = 0 then some (wholeNumber negative significand, rest)
      else some (realOfParts negative significand dropped, rest)
  else none

/-- A number at the head of a text. -/
def readNumber : List Symbol → Option (Number × List Symbol)
  | .char '-' :: rest => readUnsigned true rest
  | rest => readUnsigned false rest

end Overseer.Json
