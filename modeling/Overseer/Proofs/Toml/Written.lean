import Mathlib.Data.List.Basic
import Overseer.Proofs.Json.Numbers
import Overseer.Toml.Reader

/-!
Documents that are written line by line.

A line of such a document is a bare name, an equals sign and the text of a value
(`Line.chars`). A text that stands for a value (`Denotes`) is read as this value up to the end of
its line: strings that need no escapes, booleans and the integers of 64 bits do
(`denotes_string`, `denotes_bool`, `denotes_integer`). So a document of lines with different names
has one entry for each line, in their order (`read_lines`).
-/

namespace Overseer.Toml

/-! ### Characters -/

theorem isSpace_eq_false {c : Char} (hblank : c ≠ ' ') (htab : c ≠ '\t') : isSpace c = false := by
  simp [isSpace, hblank, htab]

theorem ne_of_isBare {c d : Char} (hc : isBare c = true) (hd : isBare d = false) : c ≠ d := by
  rintro rfl
  rw [hc] at hd
  cases hd

theorem isSpace_of_isBare {c : Char} (h : isBare c = true) : isSpace c = false :=
  isSpace_eq_false (ne_of_isBare h (by decide)) (ne_of_isBare h (by decide))

/-! ### Texts of values -/

/-- The text is read as the value when its line ends with it. -/
structure Denotes (text : List Char) (v : Value) : Prop where
  begins : ∀ c ∈ text.head?, isSpace c = false
  read : ∀ room rest, readValue (room + 1) 0 (text ++ '\n' :: rest) = some (v, '\n' :: rest)

theorem denotes_bool (b : Bool) : Denotes (if b then "true" else "false").toList (.bool b) := by
  cases b with
  | true => exact ⟨by rintro _ ⟨⟩; rfl, fun _ _ => rfl⟩
  | false => exact ⟨by rintro _ ⟨⟩; rfl, fun _ _ => rfl⟩

/-- A character that needs no escape in a string. -/
def isVerbatim (c : Char) : Bool := isPlain c ∧ c ≠ '"' ∧ c ≠ '\\'

theorem readBasic_verbatim {cs : List Char} (h : ∀ c ∈ cs, isVerbatim c = true) (room : Nat)
    (rest : List Char) :
    readBasic (cs.length + room + 1) (cs ++ '"' :: rest) = some (cs, rest) := by
  induction cs with
  | nil => rw [List.nil_append, readBasic]
  | cons c cs ih =>
    obtain ⟨hc, hcs⟩ := List.forall_mem_cons.mp h
    obtain ⟨hplain, hquote, hslash⟩ : isPlain c = true ∧ c ≠ '"' ∧ c ≠ '\\' := by
      simpa [isVerbatim] using hc
    have hroom : (c :: cs).length + room + 1 = (cs.length + room + 1) + 1 := by
      rw [List.length_cons]
      omega
    rw [hroom, List.cons_append, readBasic, if_pos hplain, ih hcs]
    · rfl
    · simpa using hquote
    · simpa using hslash

/-- A string between quotes, and no quotes follow it. -/
theorem denotes_string {text : String} (h : ∀ c ∈ text.toList, isVerbatim c = true) :
    Denotes ("\"" ++ text ++ "\"").toList (.string text) := by
  have hchars : ("\"" ++ text ++ "\"").toList = '"' :: (text.toList ++ ['"']) := by
    simp
  rw [hchars]
  refine ⟨by simp [isSpace], fun room rest => ?_⟩
  have hread : readString ('"' :: (text.toList ++ ['"'] ++ '\n' :: rest)) =
      some (text.toList, '\n' :: rest) := by
    rw [List.append_assoc, List.singleton_append]
    have hlength : (text.toList ++ '"' :: '\n' :: rest).length + 1 =
        text.toList.length + (rest.length + 2) + 1 := by
      simp
    unfold readString
    split
    · rename_i heq
      cases htext : text.toList with
      | nil => simp [htext] at heq
      | cons c cs =>
        have hc := h c (by simp [htext])
        simp only [htext, List.cons_append, List.cons.injEq, true_and] at heq
        simp [isVerbatim, heq.1] at hc
    · rename_i heq
      simp at heq
    · rename_i heq
      cases heq
      rw [hlength]
      exact readBasic_verbatim h _ _
    · rename_i heq
      simp at heq
    · rename_i hbasic hliteral
      exact absurd rfl (hbasic _)
  rw [List.cons_append, readValue, hread]
  simp

/-! ### Integers -/

section Digits

variable {digits : List Char} {rest : List Char}

theorem digitIn?_of_isDigit {c : Char} (h : c.isDigit = true) :
    digitIn? 10 c = some (c.toNat - '0'.toNat) := by
  have hrange : '0' ≤ c ∧ c ≤ '9' := by simpa [Char.isDigit, Char.le_def] using h
  have hle : c.toNat ≤ 57 := hrange.2
  have hvalue : Text.Hex.value? c = some (c.toNat - '0'.toNat) := by
    rw [Text.Hex.value?, if_pos hrange]
    rfl
  rw [digitIn?, hvalue, Option.bind_some, if_pos]
  have hzero : '0'.toNat = 48 := rfl
  omega

/-- More digits are read up to the end of the line. -/
theorem readMore_digits (h : ∀ c ∈ digits, c.isDigit = true) (value count : Nat) :
    readMore 10 value count (digits ++ '\n' :: rest) =
      (Nat.ofDigitChars 10 digits value, count + digits.length, '\n' :: rest) := by
  induction digits generalizing value count with
  | nil =>
    have hnone : digitIn? 10 '\n' = none := by decide
    rw [List.nil_append, readMore]
    · rw [hnone]
      rfl
    · exact nofun
  | cons c digits ih =>
    obtain ⟨hc, hdigits⟩ := List.forall_mem_cons.mp h
    rw [List.cons_append, readMore]
    · rw [digitIn?_of_isDigit hc]
      dsimp only
      rw [ih hdigits, Nat.ofDigitChars_cons, List.length_cons]
      congr 2
      omega
    · intro c' rest' heq
      cases heq
      cases hc

theorem readDigits_digits (hne : digits ≠ []) (h : ∀ c ∈ digits, c.isDigit = true) :
    readDigits 10 (digits ++ '\n' :: rest) =
      some (Nat.ofDigitChars 10 digits 0, digits.length, '\n' :: rest) := by
  obtain ⟨c, digits, rfl⟩ := List.exists_cons_of_ne_nil hne
  obtain ⟨hc, hdigits⟩ := List.forall_mem_cons.mp h
  rw [List.cons_append, readDigits, digitIn?_of_isDigit hc, Option.map_some,
    readMore_digits hdigits, Nat.ofDigitChars_cons, List.length_cons, Nat.mul_zero, Nat.zero_add,
    Nat.add_comm 1]

theorem isDigit_toDigits (n : Nat) : ∀ c ∈ Nat.toDigits 10 n, c.isDigit = true :=
  fun _ hc => Nat.isDigit_of_mem_toDigits (by decide) (by decide) hc

/-- The digits of a number are read as it. -/
theorem readWhole_toDigits (n : Nat) (rest : List Char) :
    readWhole (Nat.toDigits 10 n ++ '\n' :: rest) =
      some (n, (Nat.toDigits 10 n).length, '\n' :: rest) := by
  by_cases hzero : n = 0
  · subst hzero
    rfl
  · have hhead := Json.head?_digitsOf (Nat.pos_of_ne_zero hzero)
    have hread : readDigits 10 (Nat.toDigits 10 n ++ '\n' :: rest) =
        some (n, (Nat.toDigits 10 n).length, '\n' :: rest) := by
      rw [readDigits_digits Nat.toDigits_ne_nil (isDigit_toDigits n),
        Nat.ofDigitChars_ten_toDigits]
    unfold readWhole
    split
    · rename_i heq
      rw [Json.digitsOf] at hhead
      have hne := Nat.toDigits_ne_nil (b := 10) (n := n)
      cases hlist : Nat.toDigits 10 n with
      | nil => exact absurd hlist hne
      | cons c digits =>
        rw [hlist] at heq hhead
        cases heq
        exact absurd rfl hhead
    · exact hread

/-- A sign, or none, and digits. -/
def signed (negative : Bool) (digits : List Char) : List Char :=
  if negative then '-' :: digits else digits

theorem readSign_signed (negative : Bool) (hne : digits ≠ [])
    (h : ∀ c ∈ digits, c.isDigit = true) :
    readSign (signed negative digits ++ '\n' :: rest) = (negative, digits ++ '\n' :: rest) := by
  cases negative with
  | true => rfl
  | false =>
    obtain ⟨c, digits, rfl⟩ := List.exists_cons_of_ne_nil hne
    have hc := (List.forall_mem_cons.mp h).1
    rw [signed, if_neg Bool.false_ne_true, List.cons_append, readSign]
    · intro rest' heq
      cases heq
      cases hc
    · intro rest' heq
      cases heq
      cases hc

theorem digitValue?_isSome_of_isDigit {c : Char} (h : c.isDigit = true) :
    (Decimal.digitValue? c).isSome = true := by
  rw [Decimal.digitValue?_of_isDigit h]
  rfl

/-- Digits that end a line begin no time. -/
theorem startsTime_digits (h : ∀ c ∈ digits, c.isDigit = true) :
    startsTime (digits ++ '\n' :: rest) = false := by
  have hbreak : (Decimal.digitValue? '\n').isSome = false := by decide
  unfold startsTime
  split
  · rename_i a b more heq
    rcases digits with - | ⟨first, - | ⟨second, - | ⟨third, digits⟩⟩⟩
    · cases heq
      rw [hbreak, Bool.false_and]
    · cases heq
      rw [hbreak, Bool.and_false]
    · cases heq
    · cases heq
      exact absurd (h ':' (by simp)) (by decide)
  · rfl

/-- Digits that end a line, with or without a sign, begin no date and no time. -/
theorem startsDatetime_signed (negative : Bool) (h : ∀ c ∈ digits, c.isDigit = true) :
    startsDatetime (signed negative digits ++ '\n' :: rest) = false := by
  cases negative with
  | true =>
    have hminus : (Decimal.digitValue? '-').isSome = false := by decide
    have htime : startsTime ('-' :: (digits ++ '\n' :: rest)) = false := by
      unfold startsTime
      split
      · rename_i heq
        rw [← (List.cons.inj heq).1, hminus, Bool.false_and]
      · rfl
    simp [startsDatetime, signed, hminus, htime]
  | false =>
    have hrun : (digits ++ '\n' :: rest).takeWhile (fun c => (Decimal.digitValue? c).isSome) =
        digits := by
      rw [List.takeWhile_append_of_pos fun c hc => digitValue?_isSome_of_isDigit (h c hc)]
      have hbreak : (Decimal.digitValue? '\n').isSome = false := by decide
      simp [hbreak]
    simp only [startsDatetime, signed, if_neg Bool.false_ne_true, hrun, startsTime_digits h,
      Bool.or_false, Bool.and_eq_false_iff, decide_eq_false_iff_not]
    by_cases hfour : digits.length = 4
    · right
      rw [← hfour, List.drop_left]
      simp
    · exact .inl hfour

/-- Digits that end a line are no real number. -/
theorem readReal_signed (negative : Bool) (n : Nat) (rest : List Char) :
    readReal (signed negative (Nat.toDigits 10 n) ++ '\n' :: rest) = none := by
  have hne := Nat.toDigits_ne_nil (b := 10) (n := n)
  have hdigits := isDigit_toDigits n
  have hwhole := readWhole_toDigits n rest
  unfold readReal
  rw [readSign_signed negative hne hdigits]
  dsimp only
  generalize Nat.toDigits 10 n = digits at hne hdigits hwhole
  obtain ⟨c, digits, rfl⟩ := List.exists_cons_of_ne_nil hne
  have hc := (List.forall_mem_cons.mp hdigits).1
  split
  · rename_i heq
    rw [(List.cons.inj heq).1] at hc
    cases hc
  · rename_i heq
    rw [(List.cons.inj heq).1] at hc
    cases hc
  · rw [hwhole]
    rfl

/-- Digits that end a line have no mark of another base after the first. -/
theorem signed_ne_based (negative : Bool) (h : ∀ c ∈ digits, c.isDigit = true) {mark : Char}
    (hmark : mark.isDigit = false) (hbreak : mark ≠ '\n') (more : List Char) :
    signed negative digits ++ '\n' :: rest ≠ '0' :: mark :: more := by
  intro heq
  cases negative with
  | true => cases (List.cons.inj heq).1
  | false =>
    rcases digits with - | ⟨first, - | ⟨second, digits⟩⟩
    · cases (List.cons.inj heq).1
    · exact hbreak (List.cons.inj (List.cons.inj heq).2).1.symm
    · have hsecond := h second (by simp)
      rw [(List.cons.inj (List.cons.inj heq).2).1, hmark] at hsecond
      cases hsecond

theorem readInteger_signed (negative : Bool) (n : Nat) (rest : List Char) :
    readInteger (signed negative (Nat.toDigits 10 n) ++ '\n' :: rest) =
      (fitting negative n).map (·, '\n' :: rest) := by
  have hne := Nat.toDigits_ne_nil (b := 10) (n := n)
  have hdigits := isDigit_toDigits n
  unfold readInteger
  split
  · rename_i heq
    exact absurd heq (signed_ne_based negative hdigits (by decide) (by decide) _)
  · rename_i heq
    exact absurd heq (signed_ne_based negative hdigits (by decide) (by decide) _)
  · rename_i heq
    exact absurd heq (signed_ne_based negative hdigits (by decide) (by decide) _)
  · rw [readSign_signed negative hne hdigits]
    dsimp only
    rw [readWhole_toDigits]
    rfl

/-- A number with a sign or none, as long as it fits. -/
theorem denotes_signed {negative : Bool} {n : Nat} {i : Int} (h : fitting negative n = some i) :
    Denotes (signed negative (Nat.toDigits 10 n)) (.integer i) := by
  have hne := Nat.toDigits_ne_nil (b := 10) (n := n)
  have hdigits := isDigit_toDigits n
  have hfirst : ∃ c more, signed negative (Nat.toDigits 10 n) = c :: more ∧
      (c.isDigit = true ∨ c = '-') := by
    cases negative with
    | true => exact ⟨'-', _, rfl, .inr rfl⟩
    | false =>
      obtain ⟨c, more, hcons⟩ := List.exists_cons_of_ne_nil hne
      exact ⟨c, more, hcons, .inl (hdigits c (by simp [hcons]))⟩
  obtain ⟨c, more, hcons, hc⟩ := hfirst
  have hother : ∀ d : Char, d.isDigit = false → d ≠ '-' → c ≠ d := by
    rintro d hdigit hminus rfl
    rcases hc with hc | hc
    · rw [hdigit] at hc
      cases hc
    · exact hminus hc
  constructor
  · intro c' hc'
    rw [hcons] at hc'
    obtain rfl : c = c' := by simpa using hc'
    apply isSpace_eq_false
    · exact hother ' ' (by decide) (by decide)
    · exact hother '\t' (by decide) (by decide)
  · intro room rest
    have hdatetime :
        startsDatetime (signed negative (Nat.toDigits 10 n) ++ '\n' :: rest) = false :=
      startsDatetime_signed negative hdigits
    have hreal := readReal_signed negative n rest
    have hinteger := readInteger_signed negative n rest
    rw [h] at hinteger
    generalize signed negative (Nat.toDigits 10 n) = text at hcons hdatetime hreal hinteger
    subst hcons
    rw [List.cons_append] at *
    rw [readValue]
    · rw [if_neg (by simp [hdatetime]), hreal]
      simp [hinteger]
    all_goals
      intro tail heq
      exact hother _ (by decide) (by decide) (List.cons.inj heq).1

end Digits

/-- An integer of 64 bits. -/
theorem denotes_integer {i : Int} (low : -0x8000000000000000 ≤ i) (high : i < 0x8000000000000000) :
    Denotes (toString i).toList (.integer i) := by
  cases i with
  | ofNat n =>
    have htext : (toString (Int.ofNat n)).toList = signed false (Nat.toDigits 10 n) :=
      Nat.toList_repr
    rw [htext]
    refine denotes_signed ?_
    rw [fitting, if_neg Bool.false_ne_true, if_pos]
    · rfl
    · exact Int.ofNat_lt.mp high
  | negSucc n =>
    have htext : (toString (Int.negSucc n)).toList = signed true (Nat.toDigits 10 (n + 1)) := by
      change ("-" ++ (n + 1).repr).toList = _
      rw [String.toList_append, Nat.toList_repr]
      rfl
    rw [htext]
    refine denotes_signed ?_
    rw [fitting, if_pos rfl, if_pos]
    · rfl
    · omega

theorem denotes_natural {n : Nat} (h : n < 0x8000000000000000) :
    Denotes (toString n).toList (.integer n) :=
  denotes_integer (i := n) (by omega) (by omega)

/-! ### Lines -/

/-- A line with a name, the text of its value, and the value. -/
structure Line where
  name : String
  text : List Char
  value : Value

namespace Line

def chars (l : Line) : List Char := l.name.toList ++ ' ' :: '=' :: ' ' :: (l.text ++ ['\n'])

def entry (l : Line) : String × Value := (l.name, l.value)

/-- The name needs no quotes, and the text stands for the value. -/
structure Sound (l : Line) : Prop where
  named : l.name ≠ ""
  bare : ∀ c ∈ l.name.toList, isBare c = true
  denotes : Denotes l.text l.value

end Line

theorem skipSpaces_of_ne {c : Char} (h : isSpace c = false) (rest : List Char) :
    skipSpaces (c :: rest) = c :: rest :=
  List.dropWhile_cons_of_neg (by simp [h])

theorem Denotes.skipSpaces {text : List Char} {v : Value} (h : Denotes text v) (rest : List Char) :
    Toml.skipSpaces (text ++ '\n' :: rest) = text ++ '\n' :: rest := by
  cases text with
  | nil => exact skipSpaces_of_ne (by decide) rest
  | cons c text => exact skipSpaces_of_ne (h.begins c rfl) _

/-- A line that begins with a name is neither blank nor a comment. -/
theorem readLineEnd_bare {c : Char} (h : isBare c = true) (rest : List Char) :
    readLineEnd (c :: rest) = none := by
  have hcomment : skipComment (c :: rest) = c :: rest := by
    rw [skipComment]
    intro tail heq
    exact ne_of_isBare h (by decide) (List.cons.inj heq).1
  rw [readLineEnd, skipSpaces_of_ne (isSpace_of_isBare h), hcomment]
  dsimp only
  rw [readNewline]
  · intro tail heq
    exact ne_of_isBare h (by decide) (List.cons.inj heq).1
  · intro tail heq
    exact ne_of_isBare h (by decide) (List.cons.inj heq).1

/-- A bare name up to the space after it. -/
theorem readHeader_bare {name : String} (hne : name ≠ "")
    (hbare : ∀ c ∈ name.toList, isBare c = true) (rest : List Char) :
    readHeader (name.toList ++ ' ' :: '=' :: rest) = some (([], name), '=' :: rest) := by
  have hspace : isBare ' ' = false := by decide
  have htake : (name.toList ++ ' ' :: '=' :: rest).takeWhile isBare = name.toList := by
    rw [List.takeWhile_append_of_pos hbare]
    simp [hspace]
  have hdrop : (name.toList ++ ' ' :: '=' :: rest).dropWhile isBare = ' ' :: '=' :: rest := by
    rw [List.dropWhile_append_of_pos hbare]
    simp [hspace]
  have hsimple : readSimpleKey (skipSpaces (name.toList ++ ' ' :: '=' :: rest)) =
      some (name, ' ' :: '=' :: rest) := by
    obtain ⟨c, cs, hname⟩ := List.exists_cons_of_ne_nil (mt String.toList_eq_nil_iff.mp hne)
    have hc := hbare c (by simp [hname])
    have hskip : skipSpaces (name.toList ++ ' ' :: '=' :: rest) =
        name.toList ++ ' ' :: '=' :: rest := by
      rw [hname, List.cons_append, skipSpaces_of_ne (isSpace_of_isBare hc)]
    rw [hskip]
    unfold readSimpleKey
    split
    · rename_i heq
      rw [hname] at heq
      exact absurd (List.cons.inj heq).1 (ne_of_isBare hc (by decide))
    · rename_i heq
      rw [hname] at heq
      exact absurd (List.cons.inj heq).1 (ne_of_isBare hc (by decide))
    · rw [htake, hdrop, hname]
      dsimp only
      rw [← hname, String.ofList_toList]
  have hequals : skipSpaces (' ' :: '=' :: rest) = '=' :: rest := rfl
  have hkey : readLimitedKey (name.toList ++ ' ' :: '=' :: rest) = some ([name], '=' :: rest) := by
    rw [readLimitedKey, readKey, hsimple, Option.bind_some]
    dsimp only
    rw [hequals]
    rfl
  rw [readHeader, hkey]
  rfl

/-- A line adds its entry. -/
theorem Line.Sound.readLine {l : Line} (h : l.Sound) (d : Draft) (rest : List Char) :
    readLine d (l.chars ++ rest) = (d.insert [] l.name l.value).map (·, rest) := by
  have hchars : l.chars ++ rest =
      l.name.toList ++ ' ' :: '=' :: ' ' :: (l.text ++ '\n' :: rest) := by
    simp [Line.chars]
  obtain ⟨c, cs, hname⟩ := List.exists_cons_of_ne_nil (mt String.toList_eq_nil_iff.mp h.named)
  have hc := h.bare c (by simp [hname])
  have hheader := readHeader_bare h.named h.bare (' ' :: (l.text ++ '\n' :: rest))
  have hskip : skipSpaces (' ' :: (l.text ++ '\n' :: rest)) = l.text ++ '\n' :: rest :=
    h.denotes.skipSpaces rest
  have hend : readLineEnd ('\n' :: rest) = some rest := rfl
  rw [hchars]
  unfold Toml.readLine
  split
  · rename_i heq
    rw [hname] at heq
    exact absurd (List.cons.inj heq).1 (ne_of_isBare hc (by decide))
  · rename_i heq
    rw [hname] at heq
    exact absurd (List.cons.inj heq).1 (ne_of_isBare hc (by decide))
  · rw [hheader, hname, List.cons_append, readLineEnd_bare hc]
    simp only [Option.bind_some, hskip, h.denotes.read, hend]

/-! ### Documents -/

section Entries

variable {name : String} {entries : Entries}

theorem Entries.put_new (v : Value) (new : name ∉ entries.map Prod.fst) :
    entries.put name v = entries ++ [(name, v)] := by
  induction entries with
  | nil => rfl
  | cons entry rest ih =>
    rw [List.map_cons, List.mem_cons, not_or] at new
    rw [put, if_neg (Ne.symm new.1), ih new.2, List.cons_append]

theorem Entries.lookup_new (new : name ∉ entries.map Prod.fst) : entries.lookup name = none := by
  refine List.lookup_eq_none_iff.mpr fun entry hentry => ?_
  have hne : name ≠ entry.1 := fun heq => new (heq ▸ List.mem_map_of_mem hentry)
  simpa using hne

end Entries

/-- A name that is not there yet is added at the end. -/
theorem Draft.insert_new {d : Draft} {name : String} (v : Value)
    (new : name ∉ d.current.entries.map Prod.fst) (direct : d.current.origin.dotted = false) :
    d.insert [] name v =
      some { d with
        current := { d.current with entries := d.current.entries ++ [(name, v)] } } := by
  simp [Draft.insert, Table.insert, Table.changeAt, Entries.lookup_new new, direct,
    Entries.put_new v new]

/-- A line begins with the first character of its name. -/
theorem Line.Sound.exists_cons {l : Line} (h : l.Sound) (rest : List Char) :
    ∃ c more, l.chars ++ rest = c :: more ∧ isBare c = true := by
  obtain ⟨c, cs, hname⟩ := List.exists_cons_of_ne_nil (mt String.toList_eq_nil_iff.mp h.named)
  have hchars : l.chars ++ rest = c :: (cs ++ ' ' :: '=' :: ' ' :: (l.text ++ '\n' :: rest)) := by
    simp [Line.chars, hname]
  exact ⟨c, _, hchars, h.bare c (by simp [hname])⟩

/-- Lines add their entries, in their order. -/
theorem readLines_lines {lines : List Line} (sound : ∀ l ∈ lines, l.Sound) {d : Draft}
    (top : d.path = []) (direct : d.current.origin.dotted = false)
    (apart : (d.current.entries.map Prod.fst ++ lines.map Line.name).Nodup) (room : Nat) :
    readLines (lines.length + room + 1) d (lines.flatMap Line.chars) =
      some { d.current with entries := d.current.entries ++ lines.map Line.entry } := by
  induction lines generalizing d with
  | nil =>
    rw [List.flatMap_nil, List.map_nil, List.append_nil]
    simp [readLines, skipSpaces, Draft.close, top]
  | cons l rest ih =>
    obtain ⟨hl, hrest⟩ := List.forall_mem_cons.mp sound
    have hroom : (l :: rest).length + room + 1 = (rest.length + room + 1) + 1 := by
      rw [List.length_cons]
      omega
    have hnew : l.name ∉ d.current.entries.map Prod.fst := by
      intro hmem
      exact (List.nodup_append.mp apart).2.2 _ hmem _ List.mem_cons_self rfl
    have hline := hl.readLine d (rest.flatMap Line.chars)
    rw [d.insert_new l.value hnew direct] at hline
    have hnext := ih hrest top (d := { d with
      current := { d.current with entries := d.current.entries ++ [l.entry] } }) direct
      (by simpa [Line.entry] using apart)
    obtain ⟨c, more, hcons, hc⟩ := hl.exists_cons (rest.flatMap Line.chars)
    rw [hroom, List.flatMap_cons, readLines]
    rw [hcons] at hline ⊢
    rw [skipSpaces_of_ne (isSpace_of_isBare hc)]
    dsimp only
    rw [hline, Option.map_some, Option.bind_some]
    refine hnext.trans ?_
    simp

/-- Every line takes some room. -/
theorem length_le_chars (lines : List Line) :
    lines.length ≤ (lines.flatMap Line.chars).length := by
  induction lines with
  | nil => exact Nat.le_refl 0
  | cons l rest ih =>
    have hpositive : 0 < l.chars.length := by
      simp only [Line.chars, List.length_append, List.length_cons]
      omega
    rw [List.flatMap_cons, List.length_append, List.length_cons]
    omega

/-- A document of lines with different names has their entries. -/
theorem read_lines {lines : List Line} (sound : ∀ l ∈ lines, l.Sound)
    (apart : (lines.map Line.name).Nodup) :
    read (String.ofList (lines.flatMap Line.chars)) =
      some ⟨.explicit, lines.map Line.entry⟩ := by
  have hmark : dropMark (lines.flatMap Line.chars) = lines.flatMap Line.chars := by
    cases lines with
    | nil => rfl
    | cons l rest =>
      obtain ⟨c, more, hcons, hc⟩ :=
        (sound l List.mem_cons_self).exists_cons (rest.flatMap Line.chars)
      rw [List.flatMap_cons, hcons, dropMark]
      intro tail heq
      rw [(List.cons.inj heq).1] at hc
      exact absurd hc (by decide)
  obtain ⟨room, hroom⟩ := Nat.exists_eq_add_of_le (length_le_chars lines)
  have hstart : ((Draft.start.current.entries.map Prod.fst) ++ lines.map Line.name).Nodup := by
    simpa [Draft.start] using apart
  have hlines := readLines_lines (d := .start) sound rfl rfl hstart room
  rw [read, String.toList_ofList, hmark, hroom, hlines]
  rfl

end Overseer.Toml
