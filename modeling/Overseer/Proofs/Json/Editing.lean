import Mathlib.Logic.Relation
import Overseer.Proofs.Json.Records

/-!
Edits of a value that its reader does not see.

The shape of a value says which of its objects are records, and what their fields are (`Shape`). An
edit puts the members of an object in another order, adds a member that is no field of its record,
or takes away one that says what its absence would say, at any depth (`Edit`). A reader that goes by
the shape reads the same from an edited value (`Respects`), and what is built from fields of which
each goes by its shape is kept by the edits of a record (`Keeps`).
-/

namespace Overseer.Json

variable {α β : Type}

/-! ### Shapes and edits -/

/-- A field of a record: what its value is read as, and the values that its absence stands for. -/
structure FieldShape (σ : Type) where
  name : String
  shape : σ
  IsDefault : Value → Prop

/-- What a value is read as: nothing with fields of its own, a list, or a record. -/
inductive Shape where
  | any
  | list (item : Shape)
  | record (fields : List (FieldShape Shape))

/-- A field that must be given. -/
def FieldShape.required (name : String) (shape : Shape) : FieldShape Shape :=
  ⟨name, shape, fun _ => False⟩

/-- A field that has a value when it is not given. -/
def FieldShape.defaulted (name : String) (fallback : α) (read : Value → Option α) (shape : Shape) :
    FieldShape Shape :=
  ⟨name, shape, fun v => read v = some fallback⟩

/-- The shape of a member's value; a member that is no field has none of its own. -/
def Shape.member : Shape → Option String → Shape
  | .record fields, name => ((fields.find? fun f => some f.name = name).map (·.shape)).getD .any
  | _, _ => .any

/-- The shape of an item; in a record the fields stand in their order. -/
def Shape.item : Shape → Nat → Shape
  | .any, _ => .any
  | .list item, _ => item
  | .record fields, i => (fields[i]?.map (·.shape)).getD .any

/-- One edit of a value. -/
inductive Edit : Shape → Value → Value → Prop where
  /-- The members of an object come in another order. -/
  | permute {shape : Shape} {members members' : List (Option String × Value)}
      (h : members.Perm members') : Edit shape (.object members) (.object members')
  /-- A member comes in that is no field of the record. -/
  | add {fields : List (FieldShape Shape)} {before after : List (Option String × Value)}
      {name : String} {v : Value} (hname : ∀ f ∈ fields, f.name ≠ name) (hv : v.legible = true) :
      Edit (.record fields) (.object (before ++ after))
        (.object (before ++ (some name, v) :: after))
  /-- A field goes that had the value it has by default. -/
  | drop {fields : List (FieldShape Shape)} {before after : List (Option String × Value)}
      {f : FieldShape Shape} {v : Value} (hf : f ∈ fields) (hv : f.IsDefault v) :
      Edit (.record fields) (.object (before ++ (some f.name, v) :: after))
        (.object (before ++ after))
  /-- The value of a member is edited. -/
  | member {shape : Shape} {before after : List (Option String × Value)} {name : Option String}
      {v v' : Value} (h : Edit (shape.member name) v v') :
      Edit shape (.object (before ++ (name, v) :: after)) (.object (before ++ (name, v') :: after))
  /-- An item is edited. -/
  | item {shape : Shape} {before after : List Value} {v v' : Value}
      (h : Edit (shape.item before.length) v v') :
      Edit shape (.array (before ++ v :: after)) (.array (before ++ v' :: after))

/-- There is nothing in a string to edit. -/
theorem not_edit_string {shape : Shape} {v' : Value} (s : Option String) :
    ¬ Edit shape (.string s) v' := nofun

/-- Any number of edits, one after the other. -/
def Edits (shape : Shape) : Value → Value → Prop := Relation.ReflTransGen (Edit shape)

/-! ### What can be kept whole -/

theorem legibleItems_iff {items : List Value} :
    legibleItems items = true ↔ ∀ v ∈ items, v.legible = true := by
  constructor
  · intro h
    induction items with
    | nil => nofun
    | cons v items ih =>
      simp only [legibleItems, Bool.and_eq_true] at h
      exact List.forall_mem_cons.mpr ⟨h.1, ih h.2⟩
  · exact legibleItems_of

theorem legibleMembers_iff {members : List (Option String × Value)} :
    legibleMembers members = true ↔ ∀ m ∈ members, m.1.isSome = true ∧ m.2.legible = true := by
  induction members with
  | nil => simp [legibleMembers]
  | cons m members ih =>
    obtain ⟨name, v⟩ := m
    simp only [legibleMembers, legibleMember, Bool.and_eq_true, ih, List.forall_mem_cons]

theorem Edit.legible {shape : Shape} {v v' : Value} (h : Edit shape v v')
    (hv : v.legible = true) : v'.legible = true := by
  induction h with
  | permute h =>
    rw [Value.legible, legibleMembers_iff] at hv ⊢
    exact fun m hm => hv m (h.mem_iff.mpr hm)
  | add _ hlegible =>
    rw [Value.legible, legibleMembers_iff] at hv ⊢
    simp only [List.forall_mem_append, List.forall_mem_cons] at hv ⊢
    exact ⟨hv.1, ⟨rfl, hlegible⟩, hv.2⟩
  | drop _ _ =>
    rw [Value.legible, legibleMembers_iff] at hv ⊢
    simp only [List.forall_mem_append, List.forall_mem_cons] at hv ⊢
    exact ⟨hv.1, hv.2.2⟩
  | member _ ih =>
    rw [Value.legible, legibleMembers_iff] at hv ⊢
    simp only [List.forall_mem_append, List.forall_mem_cons] at hv ⊢
    exact ⟨hv.1, ⟨hv.2.1.1, ih hv.2.1.2⟩, hv.2.2⟩
  | item _ ih =>
    rw [Value.legible, legibleItems_iff] at hv ⊢
    simp only [List.forall_mem_append, List.forall_mem_cons] at hv ⊢
    exact ⟨hv.1, ih hv.2.1, hv.2.2⟩

/-! ### Readers that go by a shape -/

/-- A reader that reads the same after an edit. -/
def Respects (shape : Shape) (read : Value → Option α) : Prop :=
  ∀ ⦃v v' : Value⦄ ⦃a : α⦄, Edit shape v v' → read v = some a → read v' = some a

namespace Respects

variable {shape : Shape} {read : Value → Option α}

/-- No edit makes anything of a value without parts. -/
theorem scalar (hobject : ∀ members, read (.object members) = none)
    (harray : ∀ items, read (.array items) = none) : Respects shape read := by
  intro v v' a h hread
  cases h with
  | item _ => rw [harray] at hread; cases hread
  | _ => rw [hobject] at hread; cases hread

theorem map (h : Respects shape read) (f : α → β) :
    Respects shape fun v => (read v).map f := by
  intro v v' b hedit hread
  obtain ⟨a, ha, rfl⟩ := Option.map_eq_some_iff.mp hread
  simp only [h hedit ha, Option.map_some]

theorem orNull (h : Respects shape read) : Respects shape (Record.orNull read) := by
  have hsome {v : Value} (hne : v ≠ .null) : Record.orNull read v = (read v).map some :=
    Spells.orNull_of_ne hne
  intro v v' o hedit hread
  have hne : v ≠ .null := by rintro rfl; cases hedit
  have hne' : v' ≠ .null := by rintro rfl; cases hedit
  rw [hsome hne] at hread
  rw [hsome hne']
  exact h.map some hedit hread

theorem readItems_append (before after : List Value) :
    Value.readItems read (before ++ after) =
      (Value.readItems read before).bind fun as =>
        (Value.readItems read after).map (as ++ ·) := by
  induction before with
  | nil => simp [Value.readItems]
  | cons v before ih =>
    simp only [List.cons_append, Value.readItems, ih]
    cases read v <;> cases Value.readItems read before <;> cases Value.readItems read after <;> rfl

theorem list (h : Respects shape read) : Respects (.list shape) (Value.list? read) := by
  intro v v' as hedit hread
  cases hedit with
  | @item _ before after v v' hitem =>
    simp only [Value.list?, readItems_append, Value.readItems] at hread ⊢
    obtain ⟨front, hfront, hread⟩ := Option.bind_eq_some_iff.mp hread
    obtain ⟨back, hback, rfl⟩ := Option.map_eq_some_iff.mp hread
    obtain ⟨a, ha, hback⟩ := Option.bind_eq_some_iff.mp hback
    rw [hfront, h hitem ha, Option.bind_some, Option.bind_some, hback, Option.map_some]
  | _ => cases hread

end Respects

/-! ### Records -/

/-- What an edit of a record makes of a field. -/
inductive FieldShape.Kept (f : FieldShape Shape) : Option Value → Option Value → Prop where
  | same (o : Option Value) : f.Kept o o
  | edited {v v' : Value} (h : Edit f.shape v v') : f.Kept (some v) (some v')
  | dropped {v : Value} (h : f.IsDefault v) : f.Kept (some v) none

/-- What an edit makes of the fields of a record. -/
def Record.Edited (fields : List (FieldShape Shape)) (r r' : Record) : Prop :=
  ∀ f ∈ fields, f.Kept (r.get? f.name) (r'.get? f.name)

/-- What is read of the fields is read of them after an edit. -/
def Keeps (fields : List (FieldShape Shape)) (build : Record → Option α) : Prop :=
  ∀ ⦃r r' : Record⦄ ⦃a : α⦄, r.Edited fields r' → build r = some a → build r' = some a

namespace Keeps

variable {fields : List (FieldShape Shape)} {shape : Shape} {name : String}
  {read : Value → Option α}

theorem pure (a : α) : Keeps fields fun _ => some a := fun _ _ _ _ h => h

theorem bind {first : Record → Option α} {next : α → Record → Option β}
    (hfirst : Keeps fields first) (hnext : ∀ a, Keeps fields (next a)) :
    Keeps fields fun r => first r >>= fun a => next a r := by
  intro r r' b hedited hread
  obtain ⟨a, ha, hb⟩ := Option.bind_eq_some_iff.mp hread
  exact Option.bind_eq_some_iff.mpr ⟨a, hfirst hedited ha, hnext a hedited hb⟩

/-- The field at `i` is read as it has to be given. -/
theorem required (i : Nat) (hf : fields[i]? = some (.required name shape))
    (h : Respects shape read) : Keeps fields fun r => r.required name read := by
  intro r r' a hedited hread
  have hkept : (FieldShape.required name shape).Kept (r.get? name) (r'.get? name) :=
    hedited _ (List.mem_of_getElem? hf)
  simp only [Record.required] at hread ⊢
  generalize r.get? name = o at hkept hread
  generalize r'.get? name = o' at hkept
  cases hkept with
  | same => exact hread
  | edited hedit => exact h hedit hread
  | dropped hdefault => exact hdefault.elim

/-- The field at `i` is read with its default. -/
theorem defaulted (i : Nat) {fallback : α}
    (hf : fields[i]? = some (.defaulted name fallback read shape)) (h : Respects shape read) :
    Keeps fields fun r => r.defaulted name fallback read := by
  intro r r' a hedited hread
  have hkept : (FieldShape.defaulted name fallback read shape).Kept (r.get? name) (r'.get? name) :=
    hedited _ (List.mem_of_getElem? hf)
  simp only [Record.defaulted] at hread ⊢
  generalize r.get? name = o at hkept hread
  generalize r'.get? name = o' at hkept
  cases hkept with
  | same => exact hread
  | edited hedit => exact h hedit hread
  | dropped hdefault =>
    have hsame : read _ = some fallback := hdefault
    exact hsame.symm.trans hread

end Keeps

end Overseer.Json
