/-!
The shortest decimal that reads back as a given binary fraction.

A finite double is `m · 2 ^ q`; the reals that round to it form an interval, whose ends belong to it
exactly when `m` is even. `shortest` walks the decimal grids from one digit to seventeen and takes
the first grid that has a point in the interval, and of two such points the nearer one. All
arithmetic is exact, on natural numbers.
-/

namespace Overseer.Decimal

/-- The number `digits · 10 ^ exponent`. -/
structure Scientific where
  digits : Nat
  exponent : Int
deriving DecidableEq, Repr

/-- A positive binary fraction `significand · 2 ^ exponent`, with a mark when the next smaller
double is only half as far away as the next larger one. -/
structure Binary where
  significand : Nat
  exponent : Int
  narrowBelow : Bool
deriving DecidableEq, Repr

/-- The magnitude of a finite double. -/
def Binary.ofBits (bits : UInt64) : Binary :=
  let fraction : Nat := bits.toNat % 0x10000000000000
  let biased : Nat := bits.toNat / 0x10000000000000 % 0x800
  if biased = 0 then ⟨fraction, -1074, false⟩
  else ⟨fraction + 0x10000000000000, Int.ofNat biased - 1075, decide (fraction = 0 ∧ 1 < biased)⟩

/-- A positive rational as numerator over denominator. -/
structure Ratio where
  num : Nat
  den : Nat

/-- `n · base ^ exponent` as a ratio. -/
def Ratio.scaled (n base : Nat) (exponent : Int) : Ratio :=
  if 0 ≤ exponent then ⟨n * Nat.pow base exponent.toNat, 1⟩
  else ⟨n, Nat.pow base (-exponent).toNat⟩

def Ratio.lt (a b : Ratio) : Bool := a.num * b.den < b.num * a.den

def Ratio.le (a b : Ratio) : Bool := a.num * b.den ≤ b.num * a.den

/-- The distance between two ratios. -/
def Ratio.distance (a b : Ratio) : Ratio :=
  let l := a.num * b.den
  let r := b.num * a.den
  ⟨if l ≤ r then r - l else l - r, a.den * b.den⟩

namespace Binary

/-- The value in quarters of the last binary place, so that the interval's ends are whole. -/
def quarters (b : Binary) (offset : Int) : Ratio :=
  Ratio.scaled (4 * b.significand + offset).toNat 2 (b.exponent - 2)

/-- Whether a ratio rounds to this double. -/
def rounds (b : Binary) (r : Ratio) : Bool :=
  let low := b.quarters (if b.narrowBelow then -1 else -2)
  let high := b.quarters 2
  if b.significand % 2 = 0 then low.le r && r.le high else low.lt r && r.lt high

/-- The two neighbours of the value on the grid of multiples of `10 ^ k`; the one that rounds back
to the value, or the nearer if both do. -/
def onGrid (b : Binary) (k : Int) : Option Nat :=
  let value := b.quarters 0
  let step := Ratio.scaled 1 10 k
  let below := value.num * step.den / (value.den * step.num)
  let point (n : Nat) : Ratio := Ratio.scaled n 10 k
  match b.rounds (point below), b.rounds (point (below + 1)) with
  | false, false => none
  | true, false => some below
  | false, true => some (below + 1)
  | true, true =>
    let down := value.distance (point below)
    let up := value.distance (point (below + 1))
    if down.lt up then some below
    else if up.lt down then some (below + 1)
    else some (if below % 2 = 0 then below else below + 1)

end Binary

/-- The count of decimal digits of a number; zero has none. -/
def digitCount (n : Nat) : Nat := if n = 0 then 0 else digitCount (n / 10) + 1
termination_by n

/-- The place of the leading digit: the greatest `e` with `10 ^ e ≤ r`, for a positive ratio. -/
def leadingPlace (r : Ratio) : Int :=
  let guess : Int := (digitCount r.num : Int) - digitCount r.den
  if (Ratio.scaled 1 10 guess).le r then guess else guess - 1

/-- Takes trailing zeros off the digits. -/
def stripZeros (digits : Nat) (exponent : Int) : Scientific :=
  if digits ≠ 0 ∧ digits % 10 = 0 then stripZeros (digits / 10) (exponent + 1)
  else ⟨digits, exponent⟩
termination_by digits

/-- Tries the grids with `places` digits and more. -/
def shortestFrom (b : Binary) (leading : Int) : Nat → Nat → Scientific
  | 0, places => ⟨b.significand, places⟩
  | more + 1, places =>
    let k := leading - places + 1
    match b.onGrid k with
    | some digits => stripZeros digits k
    | none => shortestFrom b leading more (places + 1)

/-- The shortest decimal for the magnitude of a finite double other than zero. -/
def shortest (b : Binary) : Scientific :=
  shortestFrom b (leadingPlace (b.quarters 0)) 17 1

end Overseer.Decimal
