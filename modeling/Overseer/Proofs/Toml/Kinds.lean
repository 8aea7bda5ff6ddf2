import Mathlib.Data.List.Forall2
import Overseer.Proofs.Toml.Once
import Overseer.Toml.Field

/-!
What values stand for.

Each reader of fields finds exactly what a value of its kind stands for (`Reads`), and nothing in a
value of another kind. A field that is read by name has the value that is given for it, or else the
one to fall back on, whatever stands before and after it (`Entries.field_eq_some_iff`); reading it
fails exactly if the value that is given stands for nothing (`Entries.field_isSome_iff`).
-/

namespace Overseer.Toml

/-! ### Values -/

namespace Value

variable {α : Type}

def isTable : Value → Bool
  | .table .. => true
  | _ => false

theorem isTable_iff {v : Value} :
    v.isTable = true ↔ ∃ origin entries, v = .table origin entries := by
  cases v <;> simp [isTable]

def IsText (v : Value) (text : String) : Prop := v = .string text

def IsBool (v : Value) (b : Bool) : Prop := v = .bool b

/-- A whole number from zero to below a bound. -/
def IsBelow (bound : Nat) (v : Value) (n : Nat) : Prop := v = .integer n ∧ n < bound

/-- An array whose items stand for the items of a list. -/
def IsList (holds : Value → α → Prop) (v : Value) (xs : List α) : Prop :=
  ∃ grows items, v = .array grows items ∧ List.Forall₂ holds items xs

end Value

/-- A reader finds exactly what a value stands for. -/
def Reads {α : Type} (read : Value → Option α) (holds : Value → α → Prop) : Prop :=
  ∀ v, v.Once → ∀ x, read v = some x ↔ holds v x

section Readers

variable {α : Type} {read : Value → Option α} {holds : Value → α → Prop}

/-- A value stands for one thing at most. -/
theorem Reads.unique (reads : Reads read holds) {v : Value} (once : v.Once) {x y : α}
    (hx : holds v x) (hy : holds v y) : x = y := by
  have hread := (reads v once x).mpr hx
  rw [(reads v once y).mpr hy] at hread
  exact (Option.some.inj hread).symm

theorem reads_text : Reads Value.text? Value.IsText := by
  intro v _ text
  cases v <;> simp [Value.text?, Value.IsText]

theorem reads_bool : Reads Value.bool? Value.IsBool := by
  intro v _ b
  cases v <;> simp [Value.bool?, Value.IsBool]

theorem reads_below (bound : Nat) : Reads (Value.below? bound) (Value.IsBelow bound) := by
  intro v _ n
  cases v with
  | integer i =>
    cases i with
    | ofNat m =>
      simp only [Value.below?, Value.IsBelow, Value.integer.injEq, Int.ofNat_eq_natCast,
        Int.natCast_inj, Option.ite_none_right_eq_some, Option.some.injEq]
      constructor
      · rintro ⟨hbound, rfl⟩
        exact ⟨rfl, hbound⟩
      · rintro ⟨rfl, hbound⟩
        exact ⟨hbound, rfl⟩
    | negSucc m => simp [Value.below?, Value.IsBelow]
  | _ => simp [Value.below?, Value.IsBelow]

/-- A reader of items reads a list item by item. -/
theorem reads_list (reads : Reads read holds) : Reads (Value.list? read) (Value.IsList holds) := by
  have hitems {items : List Value} (each : ∀ v ∈ items, v.Once) (xs : List α) :
      Value.readItems read items = some xs ↔ List.Forall₂ holds items xs := by
    induction items generalizing xs with
    | nil => simp [Value.readItems, eq_comm]
    | cons v items ih =>
      obtain ⟨hv, hrest⟩ := List.forall_mem_cons.mp each
      simp only [Value.readItems, Option.bind_eq_some_iff, Option.map_eq_some_iff, reads v hv,
        ih hrest, List.forall₂_cons_left_iff]
      constructor
      · rintro ⟨x, hx, rest, hrest, rfl⟩
        exact ⟨x, rest, hx, hrest, rfl⟩
      · rintro ⟨x, rest, hx, hrest, rfl⟩
        exact ⟨x, hx, rest, hrest, rfl⟩
  intro v once xs
  cases v with
  | array grows items =>
    rw [Value.list?, hitems (Value.once_array_iff.mp once)]
    constructor
    · intro h
      exact ⟨grows, items, rfl, h⟩
    · rintro ⟨grows', items', heq, h⟩
      cases heq
      exact h
  | _ => simp [Value.list?, Value.IsList]

/-- A reader of what may be missing finds that it is there. -/
theorem reads_some (reads : Reads read holds) :
    Reads (fun v => (read v).map some) fun v x => ∃ y, holds v y ∧ x = some y := by
  intro v once x
  simp only [Option.map_eq_some_iff, reads v once]
  constructor
  · rintro ⟨y, hy, rfl⟩
    exact ⟨y, hy, rfl⟩
  · rintro ⟨y, hy, rfl⟩
    exact ⟨y, hy, rfl⟩

end Readers

/-! ### Fields -/

namespace Entries

variable {α : Type} {entries : Entries} {name : String} {fallback x : α}
  {read : Value → Option α} {holds : Value → α → Prop}

/-- A field has the value that is given for it, or else the one to fall back on. -/
structure Takes (entries : Entries) (name : String) (holds : Value → α → Prop) (fallback x : α) :
    Prop where
  given : ∀ v, (name, v) ∈ entries → holds v x
  missing : (∀ v, (name, v) ∉ entries) → x = fallback

theorem lookup_eq_none_iff_not_mem : entries.lookup name = none ↔ ∀ v, (name, v) ∉ entries := by
  rw [List.lookup_eq_none_iff]
  constructor
  · intro h v hmem
    simpa using h (name, v) hmem
  · rintro h ⟨other, v⟩ hmem
    have hne : name ≠ other := by
      rintro rfl
      exact h v hmem
    simpa using hne

/-- Where a name stands once, what stands under it is the same everywhere. -/
theorem Once.eq_of_mem (once : entries.Once) {v w : Value} (hv : (name, v) ∈ entries)
    (hw : (name, w) ∈ entries) : w = v := by
  have hlookup := (lookup_eq_some_iff_mem once.names).mpr hv
  rw [(lookup_eq_some_iff_mem once.names).mpr hw] at hlookup
  exact Option.some.inj hlookup

theorem field_of_mem (once : entries.Once) {v : Value} (h : (name, v) ∈ entries) :
    entries.field name fallback read = read v := by
  rw [field, (lookup_eq_some_iff_mem once.names).mpr h]

theorem field_of_not_mem (h : ∀ v, (name, v) ∉ entries) :
    entries.field name fallback read = some fallback := by
  rw [field, lookup_eq_none_iff_not_mem.mpr h]

theorem field_eq_some_iff (once : entries.Once) (reads : Reads read holds) :
    entries.field name fallback read = some x ↔ entries.Takes name holds fallback x := by
  by_cases hgiven : ∃ v, (name, v) ∈ entries
  · obtain ⟨v, hv⟩ := hgiven
    rw [field_of_mem once hv, reads v (once.each _ hv)]
    constructor
    · intro h
      refine ⟨fun w hw => ?_, fun hnone => absurd hv (hnone v)⟩
      rw [once.eq_of_mem hv hw]
      exact h
    · intro h
      exact h.given v hv
  · have hnone := not_exists.mp hgiven
    rw [field_of_not_mem hnone]
    constructor
    · intro h
      exact ⟨fun v hv => absurd hv (hnone v), fun _ => (Option.some.inj h).symm⟩
    · intro h
      rw [h.missing hnone]

theorem field_isSome_iff (once : entries.Once) (reads : Reads read holds) :
    (entries.field name fallback read).isSome = true ↔
      ∀ v, (name, v) ∈ entries → ∃ x, holds v x := by
  by_cases hgiven : ∃ v, (name, v) ∈ entries
  · obtain ⟨v, hv⟩ := hgiven
    rw [field_of_mem once hv, Option.isSome_iff_exists]
    simp only [reads v (once.each _ hv)]
    constructor
    · intro h w hw
      rw [once.eq_of_mem hv hw]
      exact h
    · intro h
      exact h v hv
  · have hnone := not_exists.mp hgiven
    rw [field_of_not_mem hnone]
    exact iff_of_true rfl fun v hv => absurd hv (hnone v)

theorem required_eq_some_iff (once : entries.Once) (reads : Reads read holds) :
    entries.required name read = some x ↔ ∃ v, (name, v) ∈ entries ∧ holds v x := by
  simp only [required, Option.bind_eq_some_iff, lookup_eq_some_iff_mem once.names]
  constructor
  · rintro ⟨v, hv, hread⟩
    exact ⟨v, hv, (reads v (once.each _ hv) x).mp hread⟩
  · rintro ⟨v, hv, hholds⟩
    exact ⟨v, hv, (reads v (once.each _ hv) x).mpr hholds⟩

theorem optional_eq_some_iff {x : Option α} (once : entries.Once) (reads : Reads read holds) :
    entries.optional name read = some x ↔
      entries.Takes name (fun v x => ∃ y, holds v y ∧ x = some y) none x :=
  field_eq_some_iff once (reads_some reads)

/-- The fields of an array, by position. -/
theorem once_zip {names : List String} {items : List Value} (hnames : names.Nodup)
    (each : ∀ v ∈ items, v.Once) : Entries.Once (names.zip items) := by
  constructor
  · rw [List.zip_eq_zip_take_min, List.map_fst_zip (by simp [List.length_take])]
    exact hnames.sublist (List.take_sublist _ _)
  · rintro ⟨name, v⟩ hentry
    exact each v (List.of_mem_zip hentry).2

end Entries

/-! ### Records -/

/-- A part of a record, and what was found for it. -/
structure Portion (S : Type) where
  type : Type
  get : S → type
  found : Option type

/-- A record is put together from what was found for its parts: from each on its own, and from all
or none. Some of its parts are settled before. -/
structure Assembles {S : Type} (portions : List (Portion S)) (settled : S → Prop)
    (result : Option S) : Prop where
  given : ∀ s, result = some s ↔ settled s ∧ ∀ p ∈ portions, p.found = some (p.get s)
  defined : result.isSome = true ↔ ∀ p ∈ portions, p.found.isSome = true

namespace Assembles

variable {S : Type} {settled : S → Prop}

theorem nil {made : S} (h : ∀ s, settled s ↔ s = made) : Assembles [] settled (some made) where
  given := by
    intro s
    rw [h s, Option.some.injEq, eq_comm]
    simp
  defined := by simp

/-- One part is found, and settled from then on. -/
theorem cons {p : Portion S} {portions : List (Portion S)} {next : p.type → Option S}
    (rest : ∀ x, Assembles portions (fun s => settled s ∧ p.get s = x) (next x)) :
    Assembles (p :: portions) settled (p.found.bind next) where
  given := by
    intro s
    simp only [Option.bind_eq_some_iff, List.forall_mem_cons, (rest _).given]
    constructor
    · rintro ⟨x, hx, ⟨hsettled, rfl⟩, hrest⟩
      exact ⟨hsettled, hx, hrest⟩
    · rintro ⟨hsettled, hx, hrest⟩
      exact ⟨p.get s, hx, ⟨hsettled, rfl⟩, hrest⟩
  defined := by
    rw [List.forall_mem_cons]
    cases hfound : p.found with
    | none => simp
    | some x => simpa using (rest x).defined

end Assembles

end Overseer.Toml
