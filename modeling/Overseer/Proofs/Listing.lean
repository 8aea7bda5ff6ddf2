import Mathlib.Logic.Relation
import Overseer.Processes.Listing

/-!
Finding a process in a listing.

`Shows` says in terms of the text what it means that a listing shows the number of a process: which
column holds the numbers, which row counts, and what a number is. It holds of a listing exactly for
the number that is found. What is found does not change with rows that do not name the process, nor
with the blanks in a line (`Edit`), and a name that is no word is in no row (`pid_found_iff`).
-/

namespace Overseer.Processes

/-- Decimal digits after an optional plus sign, and the number that they stand for. -/
inductive Numeral : List Char → Nat → Prop where
  | plain {digits : List Char} (nonempty : digits ≠ []) (digit : ∀ c ∈ digits, c.isDigit = true) :
      Numeral digits (Nat.ofDigitChars 10 digits 0)
  | plus {digits : List Char} (nonempty : digits ≠ []) (digit : ∀ c ∈ digits, c.isDigit = true) :
      Numeral ('+' :: digits) (Nat.ofDigitChars 10 digits 0)

/-- One of the words of the row is the name. -/
def Names (name row : String) : Prop := ∃ words, Text.HasWords row words ∧ name ∈ words

/-- The listing shows the number of the process. -/
inductive Shows (listing name : String) (pid : UInt32) : Prop where
  | row {header row number : String} {before after columns words : List String} {i : Nat}
      (lines : Text.IsLines (header :: (before ++ row :: after)) listing)
      -- The column is that of the first `PID` in the header,
      (inHeader : Text.HasWords header columns)
      (column : columns[i]? = some "PID") (first : ∀ j < i, columns[j]? ≠ some "PID")
      -- the row is the first that names the process,
      (inRow : Text.HasWords row words) (named : name ∈ words)
      (earlier : ∀ other ∈ before, ¬Names name other)
      -- and where they meet is the number.
      (meet : words[i]? = some number) (numeral : Numeral number.toList pid.toNat)

/-- A change of the lines of a listing that has nothing to do with the process. -/
inductive Edit (name : String) : List String → List String → Prop where
  | insert {header row : String} {before after : List String} (unnamed : ¬Names name row) :
      Edit name (header :: (before ++ after)) (header :: (before ++ row :: after))
  | delete {header row : String} {before after : List String} (unnamed : ¬Names name row) :
      Edit name (header :: (before ++ row :: after)) (header :: (before ++ after))
  /-- Neighbours change places, unless both rows name the process. -/
  | swap {header row row' : String} {before after : List String}
      (unnamed : ¬Names name row ∨ ¬Names name row') :
      Edit name (header :: (before ++ row :: row' :: after))
        (header :: (before ++ row' :: row :: after))
  /-- A line keeps its words. -/
  | respace {line line' : String} {before after words : List String}
      (spaced : Text.HasWords line words) (spaced' : Text.HasWords line' words) :
      Edit name (before ++ line :: after) (before ++ line' :: after)

/-- A listing changes in one of these ways. -/
def Edited (name listing listing' : String) : Prop :=
  ∃ lines lines', Text.IsLines lines listing ∧ Text.IsLines lines' listing' ∧
    Edit name lines lines'

/-! ### Numbers and names -/

theorem numeral_iff {text : List Char} {n : Nat} :
    Numeral text n ↔
      Decimal.ofDigits? (match text with | '+' :: rest => rest | rest => rest) = some n := by
  constructor
  · rintro (⟨hne, hdigit⟩ | ⟨hne, hdigit⟩)
    · split
      · have hplus := hdigit '+' List.mem_cons_self
        cases hplus
      · exact Decimal.ofDigits?_eq_some_iff.mpr ⟨hne, hdigit, rfl⟩
    · exact Decimal.ofDigits?_eq_some_iff.mpr ⟨hne, hdigit, rfl⟩
  · intro h
    split at h
    · obtain ⟨hne, hdigit, rfl⟩ := Decimal.ofDigits?_eq_some_iff.mp h
      exact .plus hne hdigit
    · obtain ⟨hne, hdigit, rfl⟩ := Decimal.ofDigits?_eq_some_iff.mp h
      exact .plain hne hdigit

theorem readPid_eq_some_iff {word : String} {pid : UInt32} :
    readPid word = some pid ↔ Numeral word.toList pid.toNat := by
  have hfits (value? : Option Nat) :
      (value?.bind fun n => if n < UInt32.size then some (UInt32.ofNat n) else none) = some pid ↔
        value? = some pid.toNat := by
    cases value? with
    | none => simp
    | some n =>
      rw [Option.bind_some, Option.some.injEq]
      constructor
      · intro h
        split at h
        · rename_i hn
          cases h
          exact (UInt32.toNat_ofNat_of_lt' hn).symm
        · cases h
      · rintro rfl
        rw [if_pos pid.toNat_lt, UInt32.ofNat_toNat]
  exact (hfits _).trans numeral_iff.symm

theorem isNamed_iff {name row : String} : isNamed name row = true ↔ Names name row := by
  unfold isNamed Names
  rw [List.contains_iff_mem]
  constructor
  · intro h
    exact ⟨_, Text.words_eq_iff.mp rfl, h⟩
  · rintro ⟨words, hwords, hname⟩
    rwa [Text.words_eq_iff.mpr hwords]

/-! ### Lines -/

/-- What is found once the words of all lines are known. -/
theorem findInListing_eq {listing name header : String} {rows : List String}
    (h : Text.IsLines (header :: rows) listing) :
    findInListing listing name =
      (pidColumn? header).bind fun column => (rows.find? (isNamed name)).bind fun row =>
        (Text.words row)[column]?.bind readPid := by
  unfold findInListing
  rw [Text.lines_eq_iff.mpr h]
  cases rows with
  | nil => simp
  | cons row rows => rfl

theorem pidColumn?_eq_some_iff {header : String} {columns : List String} {i : Nat}
    (h : Text.HasWords header columns) :
    pidColumn? header = some i ↔
      columns[i]? = some "PID" ∧ ∀ j < i, columns[j]? ≠ some "PID" := by
  unfold pidColumn?
  rw [Text.words_eq_iff.mpr h, List.idxOf?_eq_some_iff]
  constructor
  · rintro ⟨hi, hfound, hfirst⟩
    refine ⟨by rw [List.getElem?_eq_getElem hi, hfound], ?_⟩
    intro j hj hother
    exact hfirst j hj (List.getElem?_eq_some_iff.mp hother).2
  · rintro ⟨hfound, hfirst⟩
    obtain ⟨hi, hfound⟩ := List.getElem?_eq_some_iff.mp hfound
    refine ⟨hi, hfound, ?_⟩
    intro j hj hother
    exact hfirst j hj (List.getElem?_eq_some_iff.mpr ⟨Nat.lt_trans hj hi, hother⟩)

theorem exists_lines (listing : String) :
    ∃ header rows, Text.IsLines (header :: rows) listing := by
  have hlines := Text.lines_eq_iff.mp (Eq.refl (Text.lines listing))
  cases hall : Text.lines listing with
  | nil => exact absurd hall hlines.nonempty
  | cons header rows => exact ⟨header, rows, hall ▸ hlines⟩

theorem findInListing_eq_some_iff {listing name : String} {pid : UInt32} :
    findInListing listing name = some pid ↔ Shows listing name pid := by
  constructor
  · intro h
    obtain ⟨header, rows, hlines⟩ := exists_lines listing
    rw [findInListing_eq hlines] at h
    obtain ⟨i, hi, h⟩ := Option.bind_eq_some_iff.mp h
    obtain ⟨row, hrow, h⟩ := Option.bind_eq_some_iff.mp h
    obtain ⟨word, hword, hpid⟩ := Option.bind_eq_some_iff.mp h
    have hheader : Text.HasWords header (Text.words header) := Text.words_eq_iff.mp rfl
    have hwords : Text.HasWords row (Text.words row) := Text.words_eq_iff.mp rfl
    obtain ⟨hcolumn, hfirst⟩ := (pidColumn?_eq_some_iff hheader).mp hi
    obtain ⟨hnamed, before, after, rfl, hbefore⟩ := List.find?_eq_some_iff_append.mp hrow
    have hname : name ∈ Text.words row := by simpa [isNamed] using hnamed
    have hearlier : ∀ other ∈ before, ¬Names name other := by
      intro other hother hnames
      have hnot := hbefore other hother
      rw [isNamed_iff.mpr hnames] at hnot
      cases hnot
    exact .row hlines hheader hcolumn hfirst hwords hname hearlier hword
      (readPid_eq_some_iff.mp hpid)
  · intro h
    cases h with
    | @row header row number before after columns words i lines inHeader column first inRow named
        earlier meet numeral =>
      have hcolumn := (pidColumn?_eq_some_iff inHeader).mpr ⟨column, first⟩
      have hrow : (before ++ row :: after).find? (isNamed name) = some row := by
        apply List.find?_eq_some_iff_append.mpr
        refine ⟨isNamed_iff.mpr ⟨words, inRow, named⟩, before, after, rfl, ?_⟩
        intro other hother
        have hnot := mt isNamed_iff.mp (earlier other hother)
        simpa using hnot
      rw [findInListing_eq lines, hcolumn, Option.bind_some, hrow, Option.bind_some,
        Text.words_eq_iff.mpr inRow, meet, Option.bind_some]
      exact readPid_eq_some_iff.mpr numeral

/-! ### Changes -/

/-- What is found depends on the words of the header and of the rows that name the process. -/
theorem findInListing_congr {listing listing' name header header' : String}
    {rows rows' : List String} (h : Text.IsLines (header :: rows) listing)
    (h' : Text.IsLines (header' :: rows') listing')
    (hheader : Text.words header' = Text.words header)
    (hrows : (rows'.map Text.words).find? (·.contains name) =
      (rows.map Text.words).find? (·.contains name)) :
    findInListing listing' name = findInListing listing name := by
  have hfound {rows : List String} {column : Nat} :
      ((rows.find? (isNamed name)).bind fun row => (Text.words row)[column]?.bind readPid) =
        ((rows.map Text.words).find? (·.contains name)).bind fun words =>
          words[column]?.bind readPid := by
    rw [List.find?_map, Option.bind_map]
    rfl
  simp only [findInListing_eq h, findInListing_eq h', hfound, pidColumn?, hheader, hrows]

theorem not_mem_words {name row : String} (h : ¬Names name row) : name ∉ Text.words row :=
  fun hname => h ⟨_, Text.words_eq_iff.mp rfl, hname⟩

theorem Edited.found {listing listing' name : String} (h : Edited name listing listing') :
    findInListing listing' name = findInListing listing name := by
  obtain ⟨lines, lines', hlines, hlines', hedit⟩ := h
  cases hedit with
  | insert unnamed =>
    apply findInListing_congr hlines hlines' rfl
    simp [List.find?_append, not_mem_words unnamed]
  | delete unnamed =>
    apply findInListing_congr hlines hlines' rfl
    simp [List.find?_append, not_mem_words unnamed]
  | swap unnamed =>
    apply findInListing_congr hlines hlines' rfl
    rcases unnamed with unnamed | unnamed
    · simp [List.find?_append, List.find?_cons, not_mem_words unnamed]
    · simp [List.find?_append, List.find?_cons, not_mem_words unnamed]
  | @respace line line' before after words spaced spaced' =>
    have hline : Text.words line' = Text.words line := by
      rw [Text.words_eq_iff.mpr spaced, Text.words_eq_iff.mpr spaced']
    cases before with
    | nil => exact findInListing_congr hlines hlines' hline rfl
    | cons header before =>
      have hrows : (before ++ line' :: after).map Text.words =
          (before ++ line :: after).map Text.words := by
        rw [List.map_append, List.map_append, List.map_cons, List.map_cons, hline]
      apply findInListing_congr hlines hlines' rfl
      exact congrArg _ hrows

/-- No row has a name that is empty or has a blank in it. -/
theorem not_names {name row : String} (h : name = "" ∨ ∃ c ∈ name.toList, Text.isBlank c = true) :
    ¬Names name row := by
  rintro ⟨words, hwords, hname⟩
  rw [← Text.words_eq_iff.mpr hwords] at hname
  obtain ⟨hne, hletters⟩ := Text.mem_words hname
  rcases h with rfl | ⟨c, hc, hblank⟩
  · exact hne rfl
  · rw [hletters c hc] at hblank
    cases hblank

/-- A process is found in a listing exactly if the listing shows its number. Rows that do not name
it, and the blanks in a line, make no difference; and a name that is no word is not found. -/
theorem pid_found_iff (listing name : String) :
    (∀ pid, findInListing listing name = some pid ↔ Shows listing name pid) ∧
    (∀ listing', Relation.ReflTransGen (Edited name) listing listing' →
      findInListing listing' name = findInListing listing name) ∧
    (name = "" ∨ (∃ c ∈ name.toList, Text.isBlank c = true) →
      findInListing listing name = none) := by
  refine ⟨fun pid => findInListing_eq_some_iff, ?_, ?_⟩
  · intro listing' hedits
    induction hedits with
    | refl => rfl
    | tail _ hedited ih => exact hedited.found.trans ih
  · intro hname
    apply Option.eq_none_iff_forall_not_mem.mpr
    intro pid hpid
    cases findInListing_eq_some_iff.mp hpid with
    | row lines inHeader column first inRow named => exact not_names hname ⟨_, inRow, named⟩

/-- The row of `init` and a tab in the header do not matter to `worker`. -/
theorem pid_found_iff_worker :
    Relation.ReflTransGen (Edited "worker") "PID NAME\n1 init\n+42 worker"
        "PID\tNAME\n+42 worker" ∧
      findInListing "PID NAME\n1 init\n+42 worker" "worker" = some 42 ∧
      findInListing "PID\tNAME\n+42 worker" "worker" = some 42 ∧
      findInListing "PID NAME\n1 init\n+42 worker" "" = none := by
  have hunnamed : ¬Names "worker" "1 init" := mt isNamed_iff.mpr (by decide +kernel)
  have hdelete : Edited "worker" "PID NAME\n1 init\n+42 worker" "PID NAME\n+42 worker" := by
    refine ⟨["PID NAME", "1 init", "+42 worker"], ["PID NAME", "+42 worker"], ?_, ?_, ?_⟩
    · exact Text.lines_eq_iff.mp (by decide +kernel)
    · exact Text.lines_eq_iff.mp (by decide +kernel)
    · exact @Edit.delete _ _ _ [] _ hunnamed
  have hrespace : Edited "worker" "PID NAME\n+42 worker" "PID\tNAME\n+42 worker" := by
    refine ⟨["PID NAME", "+42 worker"], ["PID\tNAME", "+42 worker"], ?_, ?_, ?_⟩
    · exact Text.lines_eq_iff.mp (by decide +kernel)
    · exact Text.lines_eq_iff.mp (by decide +kernel)
    · have hspace : Text.HasWords "PID NAME" ["PID", "NAME"] :=
        Text.words_eq_iff.mp (by decide +kernel)
      have htab : Text.HasWords "PID\tNAME" ["PID", "NAME"] :=
        Text.words_eq_iff.mp (by decide +kernel)
      exact @Edit.respace _ _ _ [] _ _ hspace htab
  have hedits := (Relation.ReflTransGen.single hdelete).tail hrespace
  have hfound : findInListing "PID NAME\n1 init\n+42 worker" "worker" = some 42 := by
    decide +kernel
  obtain ⟨-, hsame, -⟩ := pid_found_iff "PID NAME\n1 init\n+42 worker" "worker"
  obtain ⟨-, -, hempty⟩ := pid_found_iff "PID NAME\n1 init\n+42 worker" ""
  exact ⟨hedits, hfound, (hsame _ hedits).trans hfound, hempty (.inl rfl)⟩

end Overseer.Processes
