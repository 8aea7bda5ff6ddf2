import Overseer.Proofs.Json.Numbers

/-!
The texts that are numbers.

A number is an optional minus, whole digits without a leading zero, then optionally a point with
digits and optionally an exponent with digits (`NumberText`). These are the texts that are read as a
number to their end, and no others (`numberText_iff`), however many digits they have.
-/

namespace Overseer.Json

open Overseer.Text (Symbol)

/-! ### The grammar of numbers -/

/-- Digits, at least one. -/
structure IsDigits (text : List Char) : Prop where
  nonempty : text ≠ []
  digit : ∀ c ∈ text, c.isDigit = true

/-- The digits before the point: one zero, or digits that do not begin with a zero. -/
inductive WholeText : List Char → Prop where
  | zero : WholeText ['0']
  | digits {text : List Char} (h : IsDigits text) (hhead : text.head? ≠ some '0') : WholeText text

/-- A point and digits, or nothing. -/
inductive FractionText : List Char → Prop where
  | absent : FractionText []
  | point {digits : List Char} (h : IsDigits digits) : FractionText ('.' :: digits)

/-- The mark of an exponent, an optional sign and digits, or nothing. -/
inductive PowerText : List Char → Prop where
  | absent : PowerText []
  | mark {c : Char} {sign digits : List Char} (hmark : c ∈ ['e', 'E'])
      (hsign : sign ∈ [[], ['+'], ['-']]) (h : IsDigits digits) : PowerText (c :: (sign ++ digits))

/-- A number without a sign. -/
inductive UnsignedText : List Char → Prop where
  | parts {whole fraction power : List Char} (hwhole : WholeText whole)
      (hfraction : FractionText fraction) (hpower : PowerText power) :
      UnsignedText (whole ++ (fraction ++ power))

/-- A number as it stands in a text. -/
inductive NumberText : List Char → Prop where
  | plain {text : List Char} (h : UnsignedText text) : NumberText text
  | minus {text : List Char} (h : UnsignedText text) : NumberText ('-' :: text)

variable {rest : List Symbol} {negative : Bool}

theorem IsDigits.startsWithDigit {digits : List Char} (h : IsDigits digits) :
    startsWithDigit (digits.map .char) = true := by
  cases digits with
  | nil => exact absurd rfl h.nonempty
  | cons c digits => simp [Json.startsWithDigit, symbolDigit?_of_isDigit (h.digit c (by simp))]

theorem WholeText.isDigits {text : List Char} (h : WholeText text) : IsDigits text := by
  cases h with
  | zero => exact ⟨nofun, by simp⟩
  | digits h _ => exact h

/-! ### Numbers are read to their end -/

section Complete

variable {digits : List Char} (hdigits : ∀ c ∈ digits, c.isDigit = true)

include hdigits

theorem readWhole_all (significand dropped : Nat) :
    ∃ n k, readWhole significand dropped (digits.map .char) = (n, k, []) := by
  induction digits generalizing significand dropped with
  | nil => exact ⟨_, _, rfl⟩
  | cons c digits ih =>
    obtain ⟨hc, hdigits⟩ := List.forall_mem_cons.mp hdigits
    simp only [List.map_cons, readWhole, symbolDigit?_of_isDigit hc]
    split
    · exact ih hdigits _ _
    · exact ih hdigits _ _

theorem readFraction_all (significand places : Nat) (full : Bool) :
    ∃ n k, readFraction significand places full (digits.map .char) = (n, k, []) := by
  induction digits generalizing significand places full with
  | nil => exact ⟨_, _, rfl⟩
  | cons c digits ih =>
    obtain ⟨hc, hdigits⟩ := List.forall_mem_cons.mp hdigits
    simp only [List.map_cons, readFraction, symbolDigit?_of_isDigit hc]
    split
    · exact ih hdigits _ _ _
    · exact ih hdigits _ _ _

theorem readPower_all (n : Nat) : ∃ m, readPower n (digits.map .char) = (m, []) := by
  induction digits generalizing n with
  | nil => exact ⟨_, rfl⟩
  | cons c digits ih =>
    obtain ⟨hc, hdigits⟩ := List.forall_mem_cons.mp hdigits
    simp only [List.map_cons, readPower, symbolDigit?_of_isDigit hc]
    exact ih hdigits _

end Complete

theorem PowerText.startsWithDigit {power : List Char} (h : PowerText power) :
    startsWithDigit (power.map .char) = false := by
  cases h with
  | absent => rfl
  | mark hmark _ _ =>
    simp only [List.mem_cons, List.not_mem_nil, or_false] at hmark
    rcases hmark with rfl | rfl <;> rfl

theorem startsWithDigit_fraction {fraction power : List Char} (hfraction : FractionText fraction)
    (hpower : PowerText power) : startsWithDigit ((fraction ++ power).map .char) = false := by
  cases hfraction with
  | absent => exact hpower.startsWithDigit
  | point _ => rfl

theorem signOf_digits {sign digits : List Char} (hsign : sign ∈ [[], ['+'], ['-']])
    (h : IsDigits digits) : (signOf ((sign ++ digits).map .char)).2 = digits.map .char := by
  simp only [List.mem_cons, List.not_mem_nil, or_false] at hsign
  rcases hsign with rfl | rfl | rfl
  · have hstart := h.startsWithDigit
    rw [List.nil_append]
    unfold signOf
    split
    · rename_i heq
      rw [heq] at hstart
      cases hstart
    · rename_i heq
      rw [heq] at hstart
      cases hstart
    · rfl
  · rfl
  · rfl

theorem readSignedPower_digits {sign digits : List Char} (hsign : sign ∈ [[], ['+'], ['-']])
    (h : IsDigits digits) : ∃ p, readSignedPower ((sign ++ digits).map .char) = some (p, []) := by
  obtain ⟨m, hm⟩ := readPower_all h.digit 0
  rw [readSignedPower_eq, signOf_digits hsign h, if_pos h.startsWithDigit, hm]
  exact ⟨_, rfl⟩

theorem withPower_digits {sign digits : List Char} (hsign : sign ∈ [[], ['+'], ['-']])
    (h : IsDigits digits) (significand : Nat) (exponent : Int) :
    ∃ n, withPower negative significand exponent ((sign ++ digits).map .char) = some (n, []) := by
  obtain ⟨p, hp⟩ := readSignedPower_digits hsign h
  rw [withPower, hp]
  exact ⟨_, rfl⟩

theorem PowerText.afterFraction {power : List Char} (h : PowerText power) (significand : Nat)
    (exponent : Int) :
    ∃ n, afterFraction negative significand exponent (power.map .char) = some (n, []) := by
  cases h with
  | absent => exact ⟨_, rfl⟩
  | mark hmark hsign h =>
    simp only [List.mem_cons, List.not_mem_nil, or_false] at hmark
    rcases hmark with rfl | rfl
    · exact withPower_digits hsign h significand exponent
    · exact withPower_digits hsign h significand exponent

theorem PowerText.afterWhole {power : List Char} (h : PowerText power)
    (significand dropped : Nat) :
    ∃ n, afterWhole negative significand dropped (power.map .char) = some (n, []) := by
  cases h with
  | absent =>
    have hnone : ∀ s ∈ ([] : List Symbol).head?,
        s ≠ .char '.' ∧ s ≠ .char 'e' ∧ s ≠ .char 'E' := nofun
    rw [List.map_nil, afterWhole_of_ne hnone]
    split
    · exact ⟨_, rfl⟩
    · exact ⟨_, rfl⟩
  | mark hmark hsign h =>
    simp only [List.mem_cons, List.not_mem_nil, or_false] at hmark
    rcases hmark with rfl | rfl
    · exact withPower_digits hsign h significand dropped
    · exact withPower_digits hsign h significand dropped

theorem FractionText.afterWhole {fraction power : List Char} (hfraction : FractionText fraction)
    (hpower : PowerText power) (significand dropped : Nat) :
    ∃ n, afterWhole negative significand dropped ((fraction ++ power).map .char) =
      some (n, []) := by
  cases hfraction with
  | absent => exact hpower.afterWhole significand dropped
  | @point digits h =>
    obtain ⟨m, places, hread⟩ := readFraction_all h.digit significand 0 false
    have hall := readFraction_append hpower.startsWithDigit hread
    simp only [List.cons_append, List.map_cons, List.map_append, Json.afterWhole,
      startsWithDigit_append h.startsWithDigit, if_true, hall, List.nil_append]
    exact hpower.afterFraction m _

theorem leading_whole {whole : List Char} (h : WholeText whole)
    (hrest : startsWithDigit rest = false) :
    ∃ n k, leading (whole.map .char ++ rest) = (n, k, rest) := by
  cases h with
  | zero => exact ⟨0, 0, rfl⟩
  | digits h hhead =>
    obtain ⟨n, k, hread⟩ := readWhole_all h.digit 0 0
    have hall := readWhole_append hrest hread
    refine ⟨n, k, ?_⟩
    unfold leading
    split
    · rename_i heq
      cases whole with
      | nil => exact absurd rfl h.nonempty
      | cons c whole =>
        cases heq
        exact absurd rfl hhead
    · exact hall

theorem UnsignedText.startsWithDigit {text : List Char} (h : UnsignedText text) :
    startsWithDigit (text.map .char) = true := by
  obtain ⟨hwhole, hfraction, hpower⟩ := h
  rw [List.map_append]
  exact startsWithDigit_append hwhole.isDigits.startsWithDigit

theorem UnsignedText.read {text : List Char} (h : UnsignedText text) :
    ∃ n, readUnsigned negative (text.map .char) = some (n, []) := by
  rw [readUnsigned_eq, if_pos h.startsWithDigit]
  obtain ⟨hwhole, hfraction, hpower⟩ := h
  obtain ⟨m, k, hleading⟩ := leading_whole hwhole (startsWithDigit_fraction hfraction hpower)
  rw [List.map_append, hleading]
  exact hfraction.afterWhole hpower m k

theorem NumberText.read {text : List Char} (h : NumberText text) :
    ∃ n, readNumber (text.map .char) = some (n, []) := by
  cases h with
  | plain h =>
    rw [readNumber_of_startsWithDigit h.startsWithDigit]
    exact h.read
  | minus h => exact h.read

/-! ### What is read to its end is a number -/

theorem exists_char_of_symbolDigit? {s : Symbol} {d : Nat} (h : symbolDigit? s = some d) :
    ∃ c, s = .char c ∧ c.isDigit = true := by
  cases s with
  | stray b => cases h
  | char c => exact ⟨c, rfl, isDigit_of_symbolDigit? h⟩

/-- A text that begins with digits, up to `tail`. -/
def DigitsUpTo (text tail : List Symbol) : Prop :=
  ∃ digits : List Char, text = digits.map .char ++ tail ∧ ∀ c ∈ digits, c.isDigit = true

theorem DigitsUpTo.nil (text : List Symbol) : DigitsUpTo text text := ⟨[], rfl, nofun⟩

theorem DigitsUpTo.cons {s : Symbol} {d : Nat} {text tail : List Symbol}
    (hs : symbolDigit? s = some d) (h : DigitsUpTo text tail) : DigitsUpTo (s :: text) tail := by
  obtain ⟨c, rfl, hc⟩ := exists_char_of_symbolDigit? hs
  obtain ⟨digits, rfl, hdigits⟩ := h
  exact ⟨c :: digits, rfl, List.forall_mem_cons.mpr ⟨hc, hdigits⟩⟩

/-- Digits up to `tail` are at least one, if the text starts with one and `tail` is less than it. -/
theorem DigitsUpTo.isDigits {text tail : List Symbol} (h : DigitsUpTo text tail)
    (hstart : Json.startsWithDigit text = true) (htail : Json.startsWithDigit tail = false) :
    ∃ digits : List Char, text = digits.map .char ++ tail ∧ IsDigits digits := by
  obtain ⟨digits, rfl, hdigits⟩ := h
  refine ⟨digits, rfl, ?_, hdigits⟩
  rintro rfl
  rw [List.map_nil, List.nil_append, htail] at hstart
  cases hstart

theorem startsWithDigit_of_none {s : Symbol} {text : List Symbol} (h : symbolDigit? s = none) :
    Json.startsWithDigit (s :: text) = false := by
  simp [startsWithDigit, h]

theorem readWhole_sound {text tail : List Symbol} {m d n k : Nat}
    (h : readWhole m d text = (n, k, tail)) :
    DigitsUpTo text tail ∧ startsWithDigit tail = false := by
  induction text generalizing m d with
  | nil =>
    cases h
    exact ⟨.nil _, rfl⟩
  | cons s text ih =>
    simp only [readWhole] at h
    split at h
    · cases h
      exact ⟨.nil _, startsWithDigit_of_none ‹_›⟩
    · rename_i digit hdigit
      split at h
      · exact ⟨(ih h).1.cons hdigit, (ih h).2⟩
      · exact ⟨(ih h).1.cons hdigit, (ih h).2⟩

theorem readFraction_sound {text tail : List Symbol} {m d n k : Nat} {full : Bool}
    (h : readFraction m d full text = (n, k, tail)) :
    DigitsUpTo text tail ∧ startsWithDigit tail = false := by
  induction text generalizing m d full with
  | nil =>
    cases h
    exact ⟨.nil _, rfl⟩
  | cons s text ih =>
    simp only [readFraction] at h
    split at h
    · cases h
      exact ⟨.nil _, startsWithDigit_of_none ‹_›⟩
    · rename_i digit hdigit
      split at h
      · exact ⟨(ih h).1.cons hdigit, (ih h).2⟩
      · exact ⟨(ih h).1.cons hdigit, (ih h).2⟩

theorem readPower_sound {text tail : List Symbol} {m n : Nat} (h : readPower m text = (n, tail)) :
    DigitsUpTo text tail ∧ startsWithDigit tail = false := by
  induction text generalizing m with
  | nil =>
    cases h
    exact ⟨.nil _, rfl⟩
  | cons s text ih =>
    simp only [readPower] at h
    split at h
    · cases h
      exact ⟨.nil _, startsWithDigit_of_none ‹_›⟩
    · exact ⟨(ih h).1.cons ‹_›, (ih h).2⟩

theorem signOf_sound (text : List Symbol) :
    ∃ sign ∈ [[], ['+'], ['-']], text = sign.map .char ++ (signOf text).2 := by
  unfold signOf
  split
  · exact ⟨['-'], by simp, rfl⟩
  · exact ⟨['+'], by simp, rfl⟩
  · exact ⟨[], by simp, rfl⟩

/-- An exponent's sign and digits, which a mark before them makes an exponent. -/
theorem withPower_sound {text tail : List Symbol} {significand : Nat} {exponent : Int} {x : Number}
    (h : withPower negative significand exponent text = some (x, tail)) {c : Char}
    (hmark : c ∈ ['e', 'E']) :
    ∃ power : List Char, .char c :: text = power.map .char ++ tail ∧ PowerText power := by
  obtain ⟨⟨p, after⟩, hpower, heq⟩ := Option.map_eq_some_iff.mp h
  cases heq
  rw [readSignedPower_eq] at hpower
  split at hpower
  · rename_i hstart
    obtain ⟨sign, hsign, htext⟩ := signOf_sound text
    cases hread : readPower 0 (signOf text).2 with
    | mk n tail =>
      obtain ⟨hupto, htail⟩ := readPower_sound hread
      obtain ⟨digits, hdigits, hall⟩ := hupto.isDigits hstart htail
      rw [hread] at hpower
      cases hpower
      refine ⟨_, ?_, .mark hmark hsign hall⟩
      rw [htext, hdigits]
      simp
  · cases hpower

theorem afterFraction_sound {text tail : List Symbol} {significand : Nat} {exponent : Int}
    {x : Number} (h : afterFraction negative significand exponent text = some (x, tail)) :
    ∃ power : List Char, text = power.map .char ++ tail ∧ PowerText power := by
  unfold afterFraction at h
  split at h
  · exact withPower_sound h (by simp)
  · exact withPower_sound h (by simp)
  · cases h
    exact ⟨[], rfl, .absent⟩

theorem afterWhole_sound {text tail : List Symbol} {significand dropped : Nat} {x : Number}
    (h : afterWhole negative significand dropped text = some (x, tail)) :
    ∃ fraction power : List Char, text = (fraction ++ power).map .char ++ tail ∧
      FractionText fraction ∧ PowerText power := by
  unfold afterWhole at h
  split at h
  · rename_i fraction
    split at h
    · rename_i hstart
      cases hread : readFraction significand 0 false fraction with
      | mk n more =>
        obtain ⟨places, after⟩ := more
        obtain ⟨hupto, hafter⟩ := readFraction_sound hread
        obtain ⟨digits, rfl, hdigits⟩ := hupto.isDigits hstart hafter
        rw [hread] at h
        obtain ⟨power, rfl, hpower⟩ := afterFraction_sound h
        exact ⟨_, power, by simp, .point hdigits, hpower⟩
    · cases h
  · obtain ⟨power, htext, hpower⟩ := withPower_sound h (c := 'e') (by simp)
    exact ⟨[], power, htext, .absent, hpower⟩
  · obtain ⟨power, htext, hpower⟩ := withPower_sound h (c := 'E') (by simp)
    exact ⟨[], power, htext, .absent, hpower⟩
  · split at h
    · cases h
      exact ⟨[], [], rfl, .absent, .absent⟩
    · cases h
      exact ⟨[], [], rfl, .absent, .absent⟩

theorem leading_sound {text : List Symbol} (hstart : startsWithDigit text = true) :
    ∃ whole : List Char, text = whole.map .char ++ (leading text).2.2 ∧ WholeText whole := by
  unfold leading
  split
  · exact ⟨['0'], rfl, .zero⟩
  · rename_i hzero
    have hread : readWhole 0 0 text = readWhole 0 0 text := rfl
    obtain ⟨hupto, htail⟩ := readWhole_sound hread
    obtain ⟨digits, htext, hdigits⟩ := hupto.isDigits hstart htail
    refine ⟨digits, htext, .digits hdigits ?_⟩
    intro hhead
    cases digits with
    | nil => cases hhead
    | cons c digits =>
      cases hhead
      exact hzero _ htext

theorem readUnsigned_sound {text tail : List Symbol} {x : Number}
    (h : readUnsigned negative text = some (x, tail)) :
    ∃ number : List Char, text = number.map .char ++ tail ∧ UnsignedText number := by
  rw [readUnsigned_eq] at h
  split at h
  · rename_i hstart
    obtain ⟨whole, htext, hwhole⟩ := leading_sound hstart
    obtain ⟨fraction, power, hmore, hfraction, hpower⟩ := afterWhole_sound h
    refine ⟨whole ++ (fraction ++ power), ?_, .parts hwhole hfraction hpower⟩
    rw [htext, hmore]
    simp
  · cases h

theorem readNumber_sound {text tail : List Symbol} {x : Number}
    (h : readNumber text = some (x, tail)) :
    ∃ number : List Char, text = number.map .char ++ tail ∧ NumberText number := by
  unfold readNumber at h
  split at h
  · obtain ⟨number, rfl, hnumber⟩ := readUnsigned_sound h
    exact ⟨'-' :: number, rfl, .minus hnumber⟩
  · obtain ⟨number, rfl, hnumber⟩ := readUnsigned_sound h
    exact ⟨number, rfl, .plain hnumber⟩

/-- The texts that are read as a number to their end are those that the grammar has. -/
theorem numberText_iff {text : List Char} :
    NumberText text ↔ ∃ n, readNumber (text.map .char) = some (n, []) := by
  constructor
  · exact NumberText.read
  · rintro ⟨n, hn⟩
    obtain ⟨number, heq, hnumber⟩ := readNumber_sound hn
    rw [List.append_nil] at heq
    rwa [(List.map_inj_right fun _ _ => Symbol.char.inj).mp heq]

end Overseer.Json
