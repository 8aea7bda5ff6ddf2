import Overseer.Json.Record
import Overseer.Proofs.Json.Rendering

/-!
Records and choices that are read as they were written.

A written value carries what a reader makes of it (`Spells`): its text gives the value back, it is
nested no deeper than said, and the reader accepts it. Scalars, lists and records of such values
are such values again, so the types of a protocol need one lemma each. A record with a tag before
its fields is well-formed, and its tag and its fields are told apart again (`Tagged`).
-/

namespace Overseer.Json

variable {α : Type} {depth : Nat}

/-! ### Values that can be written and kept whole -/

/-- A value that can be written, and that is nested at most `depth` deep. -/
structure Value.Fits (depth : Nat) (v : Value) : Prop where
  writable : v.Writable
  shallow : v.depth ≤ depth

theorem depthOfItems_le {items : List Value} (h : ∀ v ∈ items, v.depth ≤ depth) :
    depthOfItems items ≤ depth := by
  induction items with
  | nil => exact Nat.zero_le _
  | cons v items ih =>
    obtain ⟨hv, hitems⟩ := List.forall_mem_cons.mp h
    exact Nat.max_le.mpr ⟨hv, ih hitems⟩

theorem depthOfMembers_le {fields : List (String × Value)} (h : ∀ m ∈ fields, m.2.depth ≤ depth) :
    depthOfMembers (named fields) ≤ depth := by
  induction fields with
  | nil => exact Nat.zero_le _
  | cons m fields ih =>
    obtain ⟨hm, hfields⟩ := List.forall_mem_cons.mp h
    exact Nat.max_le.mpr ⟨hm, ih hfields⟩

namespace Value.Fits

theorem mono {v : Value} {more : Nat} (h : v.Fits depth) (hmore : depth ≤ more) : v.Fits more := by
  constructor
  · exact h.writable
  · exact Nat.le_trans h.shallow hmore

theorem array {items : List Value} (h : ∀ v ∈ items, v.Fits depth) :
    (Value.array items).Fits (depth + 1) := by
  constructor
  · exact .array fun v hv => (h v hv).writable
  · exact Nat.succ_le_succ (depthOfItems_le fun v hv => (h v hv).shallow)

theorem record {fields : List (String × Value)} (h : ∀ m ∈ fields, m.2.Fits depth) :
    (Value.record fields).Fits (depth + 1) := by
  constructor
  · exact .record fun m hm => (h m hm).writable
  · exact Nat.succ_le_succ (depthOfMembers_le fun m hm => (h m hm).shallow)

end Value.Fits

theorem legibleItems_of {items : List Value} (h : ∀ v ∈ items, v.legible = true) :
    legibleItems items = true := by
  induction items with
  | nil => rfl
  | cons v items ih =>
    obtain ⟨hv, hitems⟩ := List.forall_mem_cons.mp h
    simp [legibleItems, hv, ih hitems]

theorem legibleMembers_of {fields : List (String × Value)} (h : ∀ m ∈ fields, m.2.legible = true) :
    legibleMembers (named fields) = true := by
  induction fields with
  | nil => rfl
  | cons m fields ih =>
    obtain ⟨hm, hfields⟩ := List.forall_mem_cons.mp h
    have hrest := ih hfields
    simp [named, legibleMembers, legibleMember, hm] at hrest ⊢
    exact hrest

theorem Value.Writable.legible {v : Value} (h : v.Writable) : v.legible = true := by
  induction h with
  | null => rfl
  | bool b => rfl
  | @number n h =>
    cases n with
    | outOfRange => exact h.elim
    | _ => rfl
  | text s => rfl
  | array h ih => exact legibleItems_of ih
  | record h ih => exact legibleMembers_of ih

theorem Value.Fits.wellFormed {v : Value} (h : v.Fits maxDepth) : v.wellFormed = true := by
  simp [Value.wellFormed, h.writable.legible, h.shallow]

/-! ### Scalars -/

@[simp] theorem Value.Fits.text (s : String) : (Value.text s).Fits depth := by
  constructor
  · exact .text s
  · exact Nat.zero_le _

@[simp] theorem Value.Fits.bool (b : Bool) : (Value.bool b).Fits depth := by
  constructor
  · exact .bool b
  · exact Nat.zero_le _

theorem Value.Fits.natural {n : Nat} (h : n < UInt64.size) : (Value.natural n).Fits depth := by
  constructor
  · exact .number h
  · exact Nat.zero_le _

@[simp] theorem Value.Fits.uint64 (n : UInt64) : (Value.natural n.toNat).Fits depth :=
  .natural n.toNat_lt

@[simp] theorem Value.Fits.uint32 (n : UInt32) : (Value.natural n.toNat).Fits depth :=
  .natural (Nat.lt_trans n.toNat_lt (by decide))

/-- A signed number of 32 bits is written as a natural number or with a minus. -/
theorem integer_int32 (n : Int32) :
    (∃ k < 0x80000000, Value.integer n.toInt = .number (.natural k) ∧ Int32.ofInt k = n) ∨
    (∃ k, 0 < k ∧ k ≤ 0x80000000 ∧ Value.integer n.toInt = .number (.negative k) ∧
      Int32.ofInt (-k) = n) := by
  have hlow := n.le_toInt
  have hhigh := n.toInt_lt
  have hsame : Int32.ofInt n.toInt = n := Int32.ofInt_toInt n
  cases hn : n.toInt with
  | ofNat k =>
    rw [hn] at hhigh hsame
    rw [Int.ofNat_eq_natCast] at hhigh
    exact .inl ⟨k, by omega, rfl, hsame⟩
  | negSucc k =>
    rw [hn] at hlow hsame
    rw [Int.negSucc_eq] at hlow
    exact .inr ⟨k + 1, by omega, by omega, rfl, hsame⟩

@[simp] theorem Value.Fits.int32 (n : Int32) : (Value.integer n.toInt).Fits depth := by
  rcases integer_int32 n with ⟨k, hk, hvalue, -⟩ | ⟨k, hpos, hk, hvalue, -⟩
  · rw [hvalue]
    exact .natural (Nat.lt_trans hk (by decide))
  · rw [hvalue]
    constructor
    · exact .number ⟨hpos, Nat.le_trans hk (by decide)⟩
    · exact Nat.zero_le _

@[simp] theorem Value.text?_text (s : String) : (Value.text s).text? = some s := rfl

@[simp] theorem Value.bool?_bool (b : Bool) : (Value.bool b).bool? = some b := rfl

@[simp] theorem Value.uint64?_natural (n : UInt64) : (Value.natural n.toNat).uint64? = some n := by
  have hsize : n.toNat < UInt64.size := n.toNat_lt
  simp [Value.uint64?, Value.below?, Value.natural, hsize]

@[simp] theorem Value.uint32?_natural (n : UInt32) : (Value.natural n.toNat).uint32? = some n := by
  have hsize : n.toNat < UInt32.size := n.toNat_lt
  simp [Value.uint32?, Value.below?, Value.natural, hsize]

@[simp] theorem Value.int32?_integer (n : Int32) : (Value.integer n.toInt).int32? = some n := by
  rcases integer_int32 n with ⟨k, hk, hvalue, hsame⟩ | ⟨k, -, hk, hvalue, hsame⟩
  · simp only [hvalue, Value.int32?, if_pos hk, hsame]
  · simp only [hvalue, Value.int32?, if_pos hk, hsame]

/-! ### Values that carry what they were written for -/

/-- A value that fits, and that a reader reads as `a`. -/
structure Spells (read : Value → Option α) (depth : Nat) (v : Value) (a : α) : Prop
    extends v.Fits depth where
  read_eq : read v = some a

namespace Spells

theorem mono {read : Value → Option α} {v : Value} {a : α} {more : Nat} (h : Spells read depth v a)
    (hmore : depth ≤ more) : Spells read more v a := by
  constructor
  · exact h.toFits.mono hmore
  · exact h.read_eq

theorem real {x : Float} (h : ReadsBack x) : Spells Value.float? 0 (.real x) x where
  writable := by
    simp only [Value.real, h.finite, if_true]
    exact .number h
  shallow := by simp [Value.real, h.finite, Value.depth]
  read_eq := by simp [Value.real, h.finite, Value.float?]

/-- Every item of a list is read back. -/
theorem list {read : Value → Option α} {toJson : α → Value} {as : List α}
    (h : ∀ a ∈ as, Spells read depth (toJson a) a) :
    Spells (Value.list? read) (depth + 1) (.array (as.map toJson)) as := by
  constructor
  · apply Value.Fits.array
    intro v hv
    obtain ⟨a, ha, rfl⟩ := List.mem_map.mp hv
    exact (h a ha).toFits
  · simp only [Value.list?]
    induction as with
    | nil => rfl
    | cons a as ih =>
      obtain ⟨ha, has⟩ := List.forall_mem_cons.mp h
      simp [Value.readItems, ha.read_eq, ih has]

theorem orNull_of_ne {read : Value → Option α} {v : Value} (h : v ≠ .null) :
    Record.orNull read v = (read v).map some := by
  unfold Record.orNull
  split
  · exact absurd rfl h
  · rfl

/-- What is absent is null, which a reader that refuses null leaves to what is absent. -/
theorem orNull {read : Value → Option α} {toJson : α → Value} {o : Option α}
    (h : ∀ a ∈ o, Spells read depth (toJson a) a) (hnull : read .null = none) :
    Spells (Record.orNull read) depth (.nullable toJson o) o := by
  cases o with
  | none =>
    constructor
    · constructor
      · exact .null
      · exact Nat.zero_le _
    · rfl
  | some a =>
    have ha := h a rfl
    constructor
    · exact ha.toFits
    · have hne : toJson a ≠ .null := by
        intro heq
        have hread := ha.read_eq
        rw [heq, hnull] at hread
        cases hread
      simp only [Value.nullable, orNull_of_ne hne, ha.read_eq, Option.map_some]

end Spells

/-! ### Records -/

theorem namedMembers_named (fields : List (String × Value)) :
    namedMembers (named fields) = some fields := by
  induction fields with
  | nil => rfl
  | cons m fields ih =>
    simp only [named] at ih
    simp [named, namedMembers, ih]

/-- The fields of a record that has each of its names once. -/
theorem record?_record {fields : List (String × Value)} {names : List String}
    (hnames : fields.map (·.1) = names) (hdistinct : distinct names = true) :
    (Value.record fields).record? names = some ⟨false, fields⟩ := by
  have hknown : (fields.filter fun m => names.contains m.1) = fields := by
    apply List.filter_eq_self.mpr
    intro m hm
    simpa [← hnames] using ⟨m.2, hm⟩
  simp only [record_eq, Value.record?, namedMembers_named, Option.bind_some, hknown, hnames,
    hdistinct, if_true]

/-- A field is looked for by an equation of names, which literals decide at once. -/
@[simp] theorem Record.get?_cons (b : Bool) (name other : String) (v : Value)
    (fields : List (String × Value)) :
    Record.get? ⟨b, (other, v) :: fields⟩ name =
      if name = other then some v else Record.get? ⟨b, fields⟩ name := by
  by_cases h : name = other
  · simp [Record.get?, h]
  · have hbeq : (name == other) = false := by simpa using h
    simp [Record.get?, List.lookup_cons, hbeq, h]

@[simp] theorem record?_single (name : String) (v : Value) :
    (Value.record [(name, v)]).record? [name] = some ⟨false, [(name, v)]⟩ :=
  record?_record rfl (by simp [distinct])

@[simp] theorem Record.required_single (name : String) (v : Value) (read : Value → Option α) :
    Record.required ⟨false, [(name, v)]⟩ name read = read v := by
  simp [Record.required]

/-- A record is read by its fields. -/
theorem Spells.record {fields : List (String × Value)} {names : List String}
    {read : Record → Option α} {a : α} (hnames : fields.map (·.1) = names)
    (hdistinct : distinct names = true) (hfields : ∀ m ∈ fields, m.2.Fits depth)
    (hread : read ⟨false, fields⟩ = some a) :
    Spells (fun v => v.record? names >>= read) (depth + 1) (.record fields) a := by
  constructor
  · exact .record hfields
  · simp only [record?_record hnames hdistinct, Option.bind_eq_bind, Option.bind_some, hread]

/-! ### Choices -/

/-- A record with its tag before its fields. -/
def tagged (tag : String) (fields : List (String × Value)) : Value :=
  .record (("type", .text tag) :: fields)

/-- The tag and the fields of a choice are told apart, unless a field has the name of the tag. -/
theorem tagged?_tagged {tag : String} {fields : List (String × Value)}
    (h : ∀ m ∈ fields, m.1 ≠ "type") :
    (tagged tag fields).tagged? = some (tag, .record fields) := by
  have hnone : (fields.filter fun m => m.1 = "type") = [] := by
    apply List.filter_eq_nil_iff.mpr
    simpa using h
  have hfields : ((named fields).filter fun m => m.1 ≠ some "type") = named fields := by
    apply List.filter_eq_self.mpr
    intro m hm
    obtain ⟨field, hfield, rfl⟩ := List.mem_map.mp hm
    simpa using h field hfield
  have hmembers : namedMembers (named (("type", Value.text tag) :: fields)) =
      some (("type", .text tag) :: fields) := namedMembers_named _
  rw [tagged, record_eq, Value.tagged?, hmembers]
  simp only [Option.bind_some, List.filter_cons, hnone, decide_true, if_true, named, List.map_cons]
  simpa [Value.text, record_eq, named] using hfields

namespace Spells

variable {read : Value → Option α} {v : Value} {a : α}

/-- A choice is read by its tag and its fields. -/
theorem tagged {ofTagged? : String → Value → Option α} {tag : String}
    {fields : List (String × Value)} (hnames : ∀ m ∈ fields, m.1 ≠ "type")
    (hfields : ∀ m ∈ fields, m.2.Fits depth) (hread : ofTagged? tag (.record fields) = some a) :
    Spells (fun v => v.tagged?.bind fun (tag, content) => ofTagged? tag content) (depth + 1)
      (tagged tag fields) a := by
  constructor
  · apply Value.Fits.record
    intro m hm
    rcases List.mem_cons.mp hm with rfl | hm
    · exact .text tag
    · exact hfields m hm
  · simp only [tagged?_tagged hnames, Option.bind_some, hread]

/-- A value that is kept whole before it is looked at is read from its own text. -/
theorem read_render (h : Spells read depth v a) (hdepth : depth ≤ maxDepth) :
    ((Json.read v.render.toUTF8).bind fun v => if v.wellFormed then read v else none) = some a := by
  have hkept := (h.toFits.mono hdepth).wellFormed
  rw [Json.read_render h.writable, Option.bind_some, if_pos hkept, h.read_eq]

end Spells

end Overseer.Json
