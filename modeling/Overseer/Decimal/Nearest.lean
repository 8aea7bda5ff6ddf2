import Overseer.Decimal.Shortest

/-!
The double nearest to a decimal.

`nearest` rounds `digits · 10 ^ exponent` to the nearest double, a half to the even neighbour; what
is too large becomes infinite and what is too small zero. Exponents far outside the range are
settled before any power of ten is formed.
-/

namespace Overseer.Decimal

/-- The positive infinity. -/
def infinity : Float := 1.0 / 0.0

/-- The nearest double to a decimal of the given sign. -/
def nearest (negative : Bool) (s : Scientific) : Float :=
  let magnitude :=
    if s.digits = 0 then 0.0
    else
      let place : Int := digitCount s.digits + s.exponent
      if 400 < place then infinity
      else if place < -400 then 0.0
      else if 0 ≤ s.exponent then Float.ofScientific s.digits false s.exponent.toNat
      else Float.ofScientific s.digits true (-s.exponent).toNat
  if negative then -magnitude else magnitude

/-- The value of a decimal digit. -/
def digitValue? (c : Char) : Option Nat :=
  if '0' ≤ c ∧ c ≤ '9' then some (c.toNat - 48) else none

/-- The value of a run of decimal digits, on top of what was read before, and what follows it. -/
def readDigits (acc : Nat) : List Char → Nat × List Char
  | [] => (acc, [])
  | c :: rest =>
    match digitValue? c with
    | some d => readDigits (10 * acc + d) rest
    | none => (acc, c :: rest)

/-- The value of a text made of decimal digits only, at least one. -/
def ofDigits? (text : List Char) : Option Nat :=
  match text, readDigits 0 text with
  | [], _ => none
  | _, (n, []) => some n
  | _, _ => none

theorem digitValue?_of_isDigit {c : Char} (h : c.isDigit = true) :
    digitValue? c = some (c.toNat - '0'.toNat) := by
  have hrange : '0' ≤ c ∧ c ≤ '9' := by simpa [Char.isDigit, Char.le_def] using h
  simp [digitValue?, hrange]

theorem digitValue?_of_not_isDigit {c : Char} (h : c.isDigit = false) : digitValue? c = none := by
  have hrange : ¬('0' ≤ c ∧ c ≤ '9') := by simpa [Char.isDigit, Char.le_def] using h
  simp [digitValue?, hrange]

theorem readDigits_eq_nil_iff {text : List Char} {acc n : Nat} :
    readDigits acc text = (n, []) ↔
      (∀ c ∈ text, c.isDigit = true) ∧ Nat.ofDigitChars 10 text acc = n := by
  induction text generalizing acc with
  | nil => simp [readDigits]
  | cons c rest ih =>
    cases hc : c.isDigit with
    | true => simp [readDigits, digitValue?_of_isDigit hc, ih, hc, Nat.ofDigitChars_cons]
    | false => simp [readDigits, digitValue?_of_not_isDigit hc, hc]

/-- A run of digits has their value, and nothing else has one. -/
theorem ofDigits?_eq_some_iff {text : List Char} {n : Nat} :
    ofDigits? text = some n ↔
      text ≠ [] ∧ (∀ c ∈ text, c.isDigit = true) ∧ Nat.ofDigitChars 10 text 0 = n := by
  rw [← readDigits_eq_nil_iff]
  unfold ofDigits?
  cases text with
  | nil => simp
  | cons c rest =>
    obtain ⟨value, remaining⟩ := readDigits 0 (c :: rest)
    cases remaining with
    | nil => simp
    | cons d more => simp

/-- The exponent mark with its number: nothing, or `e` with an optional sign and digits. -/
def readExponent : List Char → Option Int
  | [] => some 0
  | c :: rest =>
    if c = 'e' ∨ c = 'E' then
      match rest with
      | '-' :: digits => (ofDigits? digits).map fun n => -(n : Int)
      | '+' :: digits => (ofDigits? digits).map fun n => (n : Int)
      | digits => (ofDigits? digits).map fun n => (n : Int)
    else none

/-- A number without sign: digits with at most one point among or beside them, then an exponent;
or one of the words for infinity and for no number, in any case. -/
def readMagnitude (negative : Bool) (text : List Char) : Option Float :=
  let word := String.ofList (text.map Char.toLower)
  if word = "inf" ∨ word = "infinity" then some (if negative then -infinity else infinity)
  else if word = "nan" then some (0.0 / 0.0)
  else
    let (whole, rest) := readDigits 0 text
    let wholeLength := text.length - rest.length
    match rest with
    | '.' :: fraction =>
      let (digits, rest) := readDigits whole fraction
      let places := fraction.length - rest.length
      if wholeLength + places = 0 then none
      else (readExponent rest).map fun e => nearest negative ⟨digits, e - places⟩
    | rest =>
      if wholeLength = 0 then none
      else (readExponent rest).map fun e => nearest negative ⟨whole, e⟩

/-- The number a text denotes: an optional sign, then a magnitude. -/
def read (text : String) : Option Float :=
  match text.toList with
  | '-' :: rest => readMagnitude true rest
  | '+' :: rest => readMagnitude false rest
  | rest => readMagnitude false rest

end Overseer.Decimal
