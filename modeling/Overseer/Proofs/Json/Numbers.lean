import Overseer.Json.Number

/-!
Reading written numbers.

What follows a number in a text does not change how it is read, unless it goes on with digits, a
point or an exponent (`readNumber_append`). Whole numbers read back (`readNumber_natural`,
`readNumber_negative`); of a real that is required of its own text alone (`ReadsBack`), and holds
then within any text.
-/

namespace Overseer.Json

open Overseer.Text (Symbol)

/-! ### Where numbers end -/

/-- A symbol that a number cannot go on with. -/
structure Stops (s : Symbol) : Prop where
  digit : symbolDigit? s = none
  point : s ≠ .char '.'
  mark : s ≠ .char 'e'
  capital : s ≠ .char 'E'

/-- What follows a number. -/
def Ends (rest : List Symbol) : Prop := ∀ s ∈ rest.head?, Stops s

variable {rest : List Symbol} {negative : Bool}

theorem Ends.startsWithDigit (h : Ends rest) : startsWithDigit rest = false := by
  cases rest with
  | nil => rfl
  | cons s rest => simp [Json.startsWithDigit, (h s rfl).digit]

theorem startsWithDigit_append {text : List Symbol} (h : startsWithDigit text = true) :
    startsWithDigit (text ++ rest) = true := by
  cases text with
  | nil => cases h
  | cons s text => exact h

theorem symbolDigit?_eq_none {s : Symbol} (h : startsWithDigit (s :: rest) = false) :
    symbolDigit? s = none := by
  simpa [startsWithDigit] using h

theorem readWhole_append {text tail : List Symbol} {m d n k : Nat}
    (hrest : startsWithDigit rest = false) (h : readWhole m d text = (n, k, tail)) :
    readWhole m d (text ++ rest) = (n, k, tail ++ rest) := by
  induction text generalizing m d with
  | nil =>
    cases h
    cases rest with
    | nil => rfl
    | cons s rest => simp [readWhole, symbolDigit?_eq_none hrest]
  | cons s text ih =>
    simp only [readWhole, List.cons_append] at h ⊢
    split at h
    · cases h
      rfl
    · split at h
      · rw [if_pos ‹_›]
        exact ih h
      · rw [if_neg ‹_›]
        exact ih h

theorem readFraction_append {text tail : List Symbol} {m d n k : Nat} {full : Bool}
    (hrest : startsWithDigit rest = false) (h : readFraction m d full text = (n, k, tail)) :
    readFraction m d full (text ++ rest) = (n, k, tail ++ rest) := by
  induction text generalizing m d full with
  | nil =>
    cases h
    cases rest with
    | nil => rfl
    | cons s rest => simp [readFraction, symbolDigit?_eq_none hrest]
  | cons s text ih =>
    simp only [readFraction, List.cons_append] at h ⊢
    split at h
    · cases h
      rfl
    · split at h
      · rw [if_pos ‹_›]
        exact ih h
      · rw [if_neg ‹_›]
        exact ih h

theorem readPower_append {text tail : List Symbol} {m n : Nat}
    (hrest : startsWithDigit rest = false) (h : readPower m text = (n, tail)) :
    readPower m (text ++ rest) = (n, tail ++ rest) := by
  induction text generalizing m with
  | nil =>
    cases h
    cases rest with
    | nil => rfl
    | cons s rest => simp [readPower, symbolDigit?_eq_none hrest]
  | cons s text ih =>
    simp only [readPower, List.cons_append] at h ⊢
    split at h
    · cases h
      rfl
    · exact ih h

/-! ### Numbers in parts -/

/-- The sign of an exponent, and what follows it. -/
def signOf : List Symbol → Bool × List Symbol
  | .char '-' :: rest => (true, rest)
  | .char '+' :: rest => (false, rest)
  | rest => (false, rest)

theorem readSignedPower_eq (text : List Symbol) :
    readSignedPower text =
      if startsWithDigit (signOf text).2 then
        some (if (signOf text).1 then -((readPower 0 (signOf text).2).1 : Int)
          else (readPower 0 (signOf text).2).1, (readPower 0 (signOf text).2).2)
      else none := by
  rfl

/-- The whole digits, of which there is only one if it is zero. -/
def leading : List Symbol → Nat × Nat × List Symbol
  | .char '0' :: rest => (0, 0, rest)
  | text => readWhole 0 0 text

/-- What comes after an exponent's mark. -/
def withPower (negative : Bool) (significand : Nat) (exponent : Int) (power : List Symbol) :
    Option (Number × List Symbol) :=
  (readSignedPower power).map fun (p, rest) =>
    (realOfParts negative significand (exponent + p), rest)

/-- What comes after the fraction. -/
def afterFraction (negative : Bool) (significand : Nat) (exponent : Int) :
    List Symbol → Option (Number × List Symbol)
  | .char 'e' :: power => withPower negative significand exponent power
  | .char 'E' :: power => withPower negative significand exponent power
  | rest => some (realOfParts negative significand exponent, rest)

/-- What comes after the whole digits. -/
def afterWhole (negative : Bool) (significand dropped : Nat) :
    List Symbol → Option (Number × List Symbol)
  | .char '.' :: fraction =>
    if startsWithDigit fraction then
      let (significand, places, rest) := readFraction significand 0 false fraction
      afterFraction negative significand ((dropped : Int) - places) rest
    else none
  | .char 'e' :: power => withPower negative significand dropped power
  | .char 'E' :: power => withPower negative significand dropped power
  | rest =>
    if dropped = 0 then some (wholeNumber negative significand, rest)
    else some (realOfParts negative significand dropped, rest)

theorem readUnsigned_eq (text : List Symbol) :
    readUnsigned negative text =
      if startsWithDigit text then
        afterWhole negative (leading text).1 (leading text).2.1 (leading text).2.2
      else none := by
  rfl

/-! ### Numbers within a text -/

theorem readSignedPower_append {text tail : List Symbol} {p : Int}
    (hrest : startsWithDigit rest = false) (h : readSignedPower text = some (p, tail)) :
    readSignedPower (text ++ rest) = some (p, tail ++ rest) := by
  rw [readSignedPower_eq] at h ⊢
  have hdigits : startsWithDigit (signOf text).2 = true := by
    cases hdigits : startsWithDigit (signOf text).2 with
    | true => rfl
    | false => simp [hdigits] at h
  have hsign : signOf (text ++ rest) = ((signOf text).1, (signOf text).2 ++ rest) := by
    cases text with
    | nil => cases hdigits
    | cons s text =>
      unfold signOf
      rw [List.cons_append]
      split <;> simp_all
  rw [if_pos hdigits] at h
  cases hpower : readPower 0 (signOf text).2 with
  | mk n after =>
    rw [hpower] at h
    cases h
    simp only [hsign, startsWithDigit_append hdigits, readPower_append hrest hpower, if_true]

theorem withPower_append {text tail : List Symbol} {significand : Nat} {exponent : Int} {x : Number}
    (hrest : startsWithDigit rest = false)
    (h : withPower negative significand exponent text = some (x, tail)) :
    withPower negative significand exponent (text ++ rest) = some (x, tail ++ rest) := by
  unfold withPower at h ⊢
  obtain ⟨⟨p, after⟩, hpower, heq⟩ := Option.map_eq_some_iff.mp h
  cases heq
  rw [readSignedPower_append hrest hpower]
  rfl

theorem afterFraction_of_ne {significand : Nat} {exponent : Int} {text : List Symbol}
    (h : ∀ s ∈ text.head?, s ≠ .char 'e' ∧ s ≠ .char 'E') :
    afterFraction negative significand exponent text =
      some (realOfParts negative significand exponent, text) := by
  unfold afterFraction
  split
  · exact absurd rfl (h _ rfl).1
  · exact absurd rfl (h _ rfl).2
  · rfl

theorem afterFraction_append {text tail : List Symbol} {significand : Nat} {exponent : Int}
    {x : Number} (hrest : Ends rest)
    (h : afterFraction negative significand exponent text = some (x, tail)) :
    afterFraction negative significand exponent (text ++ rest) = some (x, tail ++ rest) := by
  unfold afterFraction at h
  split at h
  · exact withPower_append hrest.startsWithDigit h
  · exact withPower_append hrest.startsWithDigit h
  · rename_i hmark hcapital
    cases h
    apply afterFraction_of_ne
    intro s hs
    cases text with
    | nil => exact ⟨(hrest s hs).mark, (hrest s hs).capital⟩
    | cons first text =>
      cases hs
      constructor
      · rintro rfl
        exact hmark text rfl
      · rintro rfl
        exact hcapital text rfl

theorem afterWhole_of_ne {significand dropped : Nat} {text : List Symbol}
    (h : ∀ s ∈ text.head?, s ≠ .char '.' ∧ s ≠ .char 'e' ∧ s ≠ .char 'E') :
    afterWhole negative significand dropped text =
      if dropped = 0 then some (wholeNumber negative significand, text)
      else some (realOfParts negative significand dropped, text) := by
  unfold afterWhole
  split
  · exact absurd rfl (h _ rfl).1
  · exact absurd rfl (h _ rfl).2.1
  · exact absurd rfl (h _ rfl).2.2
  · rfl

theorem afterWhole_append {text tail : List Symbol} {significand dropped : Nat} {x : Number}
    (hrest : Ends rest) (h : afterWhole negative significand dropped text = some (x, tail)) :
    afterWhole negative significand dropped (text ++ rest) = some (x, tail ++ rest) := by
  unfold afterWhole at h
  split at h
  · rename_i fraction
    split at h
    · rename_i hdigit
      cases hfraction : readFraction significand 0 false fraction with
      | mk n more =>
        obtain ⟨places, after⟩ := more
        rw [hfraction] at h
        have happend := readFraction_append hrest.startsWithDigit hfraction
        simp only [List.cons_append, afterWhole, startsWithDigit_append hdigit, happend, if_true]
        exact afterFraction_append hrest h
    · cases h
  · exact withPower_append hrest.startsWithDigit h
  · exact withPower_append hrest.startsWithDigit h
  · rename_i hpoint hmark hcapital
    rw [afterWhole_of_ne]
    · split at h
      · cases h
        exact if_pos ‹_›
      · cases h
        exact if_neg ‹_›
    · intro s hs
      cases text with
      | nil => exact ⟨(hrest s hs).point, (hrest s hs).mark, (hrest s hs).capital⟩
      | cons first text =>
        cases hs
        refine ⟨?_, ?_, ?_⟩
        · rintro rfl
          exact hpoint text rfl
        · rintro rfl
          exact hmark text rfl
        · rintro rfl
          exact hcapital text rfl

theorem leading_append {text tail : List Symbol} {n k : Nat} (hrest : startsWithDigit rest = false)
    (hdigit : startsWithDigit text = true) (h : leading text = (n, k, tail)) :
    leading (text ++ rest) = (n, k, tail ++ rest) := by
  cases text with
  | nil => cases hdigit
  | cons s text =>
    by_cases hzero : s = .char '0'
    · subst hzero
      cases h
      rfl
    · have hleading (more : List Symbol) : leading (s :: more) = readWhole 0 0 (s :: more) := by
        unfold leading
        split
        · rename_i heq
          cases heq
          exact absurd rfl hzero
        · rfl
      rw [hleading] at h
      rw [List.cons_append, hleading, ← List.cons_append]
      exact readWhole_append hrest h

theorem readUnsigned_append {text tail : List Symbol} {x : Number} (hrest : Ends rest)
    (h : readUnsigned negative text = some (x, tail)) :
    readUnsigned negative (text ++ rest) = some (x, tail ++ rest) := by
  rw [readUnsigned_eq] at h ⊢
  cases hdigit : startsWithDigit text with
  | false => simp [hdigit] at h
  | true =>
    rw [if_pos hdigit] at h
    rw [if_pos (startsWithDigit_append hdigit)]
    have hleading := leading_append (n := (leading text).1) (k := (leading text).2.1)
      hrest.startsWithDigit hdigit rfl
    rw [hleading]
    exact afterWhole_append hrest h

/-- What follows a number does not change how it is read. -/
theorem readNumber_append {text tail : List Symbol} {x : Number} (hrest : Ends rest)
    (h : readNumber text = some (x, tail)) :
    readNumber (text ++ rest) = some (x, tail ++ rest) := by
  unfold readNumber at h
  split at h
  · exact readUnsigned_append hrest h
  · rename_i hminus
    have happend := readUnsigned_append hrest h
    cases text with
    | nil => cases h
    | cons s text =>
      unfold readNumber
      split
      · rename_i heq
        cases heq
        exact absurd rfl (hminus text)
      · exact happend

/-! ### Whole numbers -/

theorem symbolDigit?_of_isDigit {c : Char} (h : c.isDigit = true) :
    symbolDigit? (.char c) = some (c.toNat - '0'.toNat) :=
  Decimal.digitValue?_of_isDigit h

/-- Digits are gathered as long as they fit. -/
theorem readWhole_digits {digits : List Char} {n : Nat} (hdigits : ∀ c ∈ digits, c.isDigit = true)
    (hrest : startsWithDigit rest = false) (hfits : Nat.ofDigitChars 10 digits n < UInt64.size) :
    readWhole n 0 (digits.map .char ++ rest) = (Nat.ofDigitChars 10 digits n, 0, rest) := by
  induction digits generalizing n with
  | nil =>
    have hnone : readWhole n 0 [] = (n, 0, []) := rfl
    simpa using readWhole_append hrest hnone
  | cons c digits ih =>
    obtain ⟨hc, hdigits⟩ := List.forall_mem_cons.mp hdigits
    rw [Nat.ofDigitChars_cons] at hfits ⊢
    have hnext : 10 * n + (c.toNat - '0'.toNat) < UInt64.size := by
      rw [Nat.ofDigitChars_eq_ofDigitChars_zero] at hfits
      have hpow : 1 ≤ 10 ^ digits.length := Nat.one_le_pow _ _ (by decide)
      have hle := Nat.mul_le_mul_right (10 * n + (c.toNat - '0'.toNat)) hpow
      omega
    simp only [List.map_cons, List.cons_append, readWhole, symbolDigit?_of_isDigit hc]
    rw [if_pos ⟨trivial, hnext⟩]
    exact ih hdigits hfits

/-- Only zero is written with a leading zero. -/
theorem head?_digitsOf {n : Nat} (h : 0 < n) : (digitsOf n).head? ≠ some '0' := by
  unfold digitsOf
  induction n using Nat.strongRecOn with
  | ind n ih =>
    rw [Nat.toDigits_eq_if (by decide)]
    split
    · simp [Nat.pos_iff_ne_zero.mp h]
    · have hdiv : 0 < n / 10 := by omega
      have hlt : n / 10 < n := by omega
      have hhead := ih (n / 10) hlt hdiv
      cases hlist : Nat.toDigits 10 (n / 10) with
      | nil => exact absurd hlist Nat.toDigits_ne_nil
      | cons c digits => simpa [hlist] using hhead

theorem startsWithDigit_digitsOf (n : Nat) :
    startsWithDigit ((digitsOf n).map .char ++ rest) = true := by
  cases hlist : digitsOf n with
  | nil => exact absurd hlist Nat.toDigits_ne_nil
  | cons c digits =>
    have hc : c.isDigit = true :=
      Nat.isDigit_of_mem_toDigits (b := 10) (n := n) (by decide) (by decide) (by
        rw [← digitsOf, hlist]
        exact List.mem_cons_self)
    simp [startsWithDigit, symbolDigit?_of_isDigit hc]

theorem leading_digitsOf {n : Nat} (h : n < UInt64.size) (hrest : startsWithDigit rest = false) :
    leading ((digitsOf n).map .char ++ rest) = (n, 0, rest) := by
  have hdigits : ∀ c ∈ digitsOf n, c.isDigit = true :=
    fun c hc => Nat.isDigit_of_mem_toDigits (by decide) (by decide) hc
  have hvalue : Nat.ofDigitChars 10 (digitsOf n) 0 = n := Nat.ofDigitChars_ten_toDigits
  have hwhole := readWhole_digits hdigits hrest (hvalue.symm ▸ h)
  rw [hvalue] at hwhole
  by_cases hzero : n = 0
  · subst hzero
    rfl
  · rw [← hwhole]
    unfold leading
    split
    · rename_i heq
      have hhead := head?_digitsOf (Nat.pos_of_ne_zero hzero)
      cases hlist : digitsOf n with
      | nil => exact absurd hlist Nat.toDigits_ne_nil
      | cons c digits =>
        rw [hlist] at heq hhead
        cases heq
        exact absurd rfl hhead
    · rfl

theorem readUnsigned_digitsOf {n : Nat} (h : n < UInt64.size) (hrest : Ends rest) :
    readUnsigned negative ((digitsOf n).map .char ++ rest) =
      some (wholeNumber negative n, rest) := by
  rw [readUnsigned_eq, if_pos (startsWithDigit_digitsOf n),
    leading_digitsOf h hrest.startsWithDigit, afterWhole_of_ne, if_pos rfl]
  intro s hs
  exact ⟨(hrest s hs).point, (hrest s hs).mark, (hrest s hs).capital⟩

theorem readNumber_of_startsWithDigit {text : List Symbol} (h : startsWithDigit text = true) :
    readNumber text = readUnsigned false text := by
  unfold readNumber
  split
  · cases h
  · rfl

theorem readNumber_natural {n : Nat} (h : n < UInt64.size) (hrest : Ends rest) :
    readNumber ((digitsOf n).map .char ++ rest) = some (.natural n, rest) := by
  rw [readNumber_of_startsWithDigit (startsWithDigit_digitsOf n), readUnsigned_digitsOf h hrest]
  rfl

theorem readNumber_negative {n : Nat} (hpos : 0 < n) (h : n ≤ 0x8000000000000000)
    (hrest : Ends rest) :
    readNumber (.char '-' :: ((digitsOf n).map .char ++ rest)) = some (.negative n, rest) := by
  have hfits : n < UInt64.size := Nat.lt_of_le_of_lt h (by decide)
  have hwhole : wholeNumber true n = .negative n := by simp [wholeNumber, hpos, h]
  rw [← hwhole]
  exact readUnsigned_digitsOf hfits hrest

/-! ### Written numbers -/

/-- A real that is read back from its own text. -/
structure ReadsBack (x : Float) : Prop where
  finite : x.isFinite = true
  read : readNumber ((realText x).map .char) = some (.real x, [])

/-- A number that is read back from what is written for it. -/
def Number.Writable : Number → Prop
  | .natural n => n < UInt64.size
  | .negative n => 0 < n ∧ n ≤ 0x8000000000000000
  | .real x => ReadsBack x
  | .outOfRange => False

theorem Number.Writable.read {n : Number} (h : n.Writable) (hrest : Ends rest) :
    readNumber (n.text.map .char ++ rest) = some (n, rest) := by
  cases n with
  | natural n => exact readNumber_natural h hrest
  | negative n => exact readNumber_negative h.1 h.2 hrest
  | real x =>
    have hback : ReadsBack x := h
    exact readNumber_append hrest hback.read
  | outOfRange => exact h.elim

theorem isDigit_of_symbolDigit? {c : Char} {d : Nat} (h : symbolDigit? (.char c) = some d) :
    c.isDigit = true := by
  simp only [symbolDigit?, Decimal.digitValue?] at h
  split at h
  · rename_i hrange
    simpa [Char.isDigit, Char.le_def] using hrange
  · cases h

/-- A number that can be read starts with a digit or a minus. -/
theorem head_of_readNumber {text tail : List Symbol} {x : Number}
    (h : readNumber text = some (x, tail)) :
    ∃ c more, text = .char c :: more ∧ (c = '-' ∨ c.isDigit = true) := by
  unfold readNumber at h
  split at h
  · exact ⟨'-', _, rfl, .inl rfl⟩
  · rw [readUnsigned_eq] at h
    split at h
    · rename_i hdigit
      cases text with
      | nil => cases hdigit
      | cons s text =>
        cases s with
        | stray b => cases hdigit
        | char c =>
          obtain ⟨d, hd⟩ := Option.isSome_iff_exists.mp hdigit
          exact ⟨c, text, rfl, .inr (isDigit_of_symbolDigit? hd)⟩
    · cases h

end Overseer.Json
