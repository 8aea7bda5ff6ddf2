/-!
Hexadecimal digits.

`Hex.digits` writes a number without leading zeros, `Hex.padded` with a fixed count of places, and
`Hex.read` takes a run of digits of either case back (`read_padded` for every number that fits).
-/

namespace Overseer.Text.Hex

/-- The lower-case digit of a number below sixteen. -/
def digit (n : Nat) : Char :=
  if n < 10 then Char.ofNat (48 + n) else Char.ofNat (87 + n)

/-- The value of a digit of either case. -/
def value? (c : Char) : Option Nat :=
  if '0' ≤ c ∧ c ≤ '9' then some (c.toNat - 48)
  else if 'a' ≤ c ∧ c ≤ 'f' then some (c.toNat - 87)
  else if 'A' ≤ c ∧ c ≤ 'F' then some (c.toNat - 55)
  else none

theorem value?_digit {n : Nat} (h : n < 16) : value? (digit n) = some n := by
  revert n; decide

/-- The lowest `places` digits of a number, highest first. -/
def padded : Nat → Nat → List Char
  | 0, _ => []
  | places + 1, n => padded places (n / 16) ++ [digit (n % 16)]

/-- The digits of a number without leading zeros; zero is one digit. -/
def digits (n : Nat) : List Char :=
  if n < 16 then [digit n] else digits (n / 16) ++ [digit (n % 16)]
termination_by n

/-- The number that a run of digits denotes, on top of what was read before. -/
def readFrom (acc : Nat) : List Char → Option Nat
  | [] => some acc
  | c :: rest => (value? c).bind fun d => readFrom (16 * acc + d) rest

/-- The number that a run of digits denotes. -/
def read (text : List Char) : Option Nat := readFrom 0 text

theorem readFrom_append (acc : Nat) (first second : List Char) :
    readFrom acc (first ++ second) = (readFrom acc first).bind fun n => readFrom n second := by
  induction first generalizing acc with
  | nil => rfl
  | cons c rest ih => cases h : value? c <;> simp [readFrom, h, ih]

theorem read_padded {places n : Nat} (h : n < Nat.pow 16 places) :
    read (padded places n) = some n := by
  have step (places n acc : Nat) (h : n < Nat.pow 16 places) :
      readFrom acc (padded places n) = some (Nat.pow 16 places * acc + n) := by
    induction places generalizing n with
    | zero => simp_all [padded, readFrom]
    | succ places ih =>
      have hpow : Nat.pow 16 (places + 1) = Nat.pow 16 places * 16 := rfl
      have hd : n / 16 < Nat.pow 16 places := by
        rw [hpow] at h
        exact Nat.div_lt_of_lt_mul (by omega)
      simp only [padded, readFrom_append, ih _ hd, Option.bind_some, readFrom,
        value?_digit (Nat.mod_lt n (by decide : 16 > 0)), hpow]
      congr 1
      have := Nat.div_add_mod n 16
      rw [Nat.mul_add, ← Nat.mul_assoc, Nat.mul_comm 16 (Nat.pow 16 places)]
      omega
  simpa [read] using step places n 0 h

end Overseer.Text.Hex
