import Overseer.Proofs.Json.Editing
import Overseer.Proofs.Lookup

/-!
Records and choices that are edited.

An edit of a record is, for each of its fields, an edit of that field or none (`record?_edit`):
other members are not among the fields, and fields are looked up by their names, each of which is
given once at most. So a record is read as before (`Respects.record`), and an edited choice has the
tag it had (`tagged?_edit`), wherever its tag stands.
-/

namespace Overseer.Json

variable {α : Type}

/-! ### Members with names -/

theorem namedMembers_eq_some_iff {members : List (Option String × Value)}
    {fields : List (String × Value)} : namedMembers members = some fields ↔
      members = named fields := by
  constructor
  · intro h
    induction members generalizing fields with
    | nil =>
      cases h
      rfl
    | cons m members ih =>
      obtain ⟨name, v⟩ := m
      simp only [namedMembers] at h
      obtain ⟨name, rfl, h⟩ := Option.bind_eq_some_iff.mp h
      obtain ⟨rest, hrest, rfl⟩ := Option.map_eq_some_iff.mp h
      rw [ih hrest]
      rfl
  · rintro rfl
    exact namedMembers_named fields

theorem named_perm {fields : List (String × Value)} {members : List (Option String × Value)}
    (h : (named fields).Perm members) :
    ∃ fields', members = named fields' ∧ fields.Perm fields' := by
  generalize hnamed : named fields = l at h
  induction h generalizing fields with
  | nil => exact ⟨fields, hnamed.symm, .refl _⟩
  | cons m _ ih =>
    obtain ⟨field, rest, rfl, rfl, hrest⟩ := List.map_eq_cons_iff.mp hnamed
    obtain ⟨rest', rfl, hperm⟩ := ih hrest
    exact ⟨field :: rest', rfl, hperm.cons field⟩
  | swap m n l =>
    obtain ⟨second, rest, rfl, rfl, hrest⟩ := List.map_eq_cons_iff.mp hnamed
    obtain ⟨first, rest, rfl, rfl, rfl⟩ := List.map_eq_cons_iff.mp hrest
    exact ⟨first :: second :: rest, rfl, .swap ..⟩
  | trans _ _ ih ih' =>
    obtain ⟨middle, rfl, hperm⟩ := ih hnamed
    obtain ⟨fields', rfl, hperm'⟩ := ih' rfl
    exact ⟨fields', rfl, hperm.trans hperm'⟩

theorem named_eq_append {fields : List (String × Value)}
    {before after : List (Option String × Value)} (h : before ++ after = named fields) :
    ∃ b a, before = named b ∧ after = named a ∧ fields = b ++ a := by
  obtain ⟨b, a, rfl, rfl, rfl⟩ := List.map_eq_append_iff.mp h.symm
  exact ⟨b, a, rfl, rfl, rfl⟩

theorem named_eq_middle {fields : List (String × Value)} {name : Option String} {v : Value}
    {before after : List (Option String × Value)}
    (h : before ++ (name, v) :: after = named fields) :
    ∃ b n a, before = named b ∧ name = some n ∧ after = named a ∧ fields = b ++ (n, v) :: a := by
  obtain ⟨b, l, rfl, hafter, rfl⟩ := named_eq_append h
  obtain ⟨⟨n, w⟩, a, rfl, heq, rfl⟩ := List.map_eq_cons_iff.mp hafter.symm
  cases heq
  exact ⟨b, n, a, rfl, rfl, rfl, rfl⟩

/-! ### Records -/

theorem distinct_iff {names : List String} : distinct names = true ↔ names.Nodup := by
  induction names with
  | nil => simp [distinct]
  | cons name names ih => simp [distinct, ih]

/-- The members that are fields of a record. -/
def known (names : List String) (members : List (String × Value)) : List (String × Value) :=
  members.filter fun m => names.contains m.1

theorem record?_object_iff {names : List String} {members : List (Option String × Value)}
    {r : Record} : (Value.object members).record? names = some r ↔
      ∃ fields, members = named fields ∧ ((known names fields).map (·.1)).Nodup ∧
        r = ⟨false, known names fields⟩ := by
  simp only [Value.record?, Option.bind_eq_some_iff, namedMembers_eq_some_iff, ← distinct_iff]
  constructor
  · rintro ⟨fields, hfields, h⟩
    split at h
    · cases h
      exact ⟨fields, hfields, ‹_›, rfl⟩
    · cases h
  · rintro ⟨fields, hfields, hdistinct, rfl⟩
    exact ⟨fields, hfields, if_pos hdistinct⟩

theorem known_append (names : List String) (before after : List (String × Value)) :
    known names (before ++ after) = known names before ++ known names after :=
  List.filter_append ..

theorem known_cons_of_mem {names : List String} {name : String} (h : name ∈ names) (v : Value)
    (members : List (String × Value)) :
    known names ((name, v) :: members) = (name, v) :: known names members :=
  List.filter_cons_of_pos (by simpa using h)

theorem known_cons_of_not_mem {names : List String} {name : String} (h : name ∉ names) (v : Value)
    (members : List (String × Value)) :
    known names ((name, v) :: members) = known names members :=
  List.filter_cons_of_neg (by simpa using h)

section Record

variable {fields : List (FieldShape Shape)} {names : List String}

theorem member_of_mem (hnames : (fields.map (·.name)).Nodup) {f : FieldShape Shape}
    (hf : f ∈ fields) : (Shape.record fields).member (some f.name) = f.shape := by
  obtain ⟨before, after, rfl⟩ := List.append_of_mem hf
  have hfind : ((before ++ f :: after).find? fun g => some g.name = some f.name) = some f := by
    apply List.find?_eq_some_iff_append.mpr
    refine ⟨by simp, before, after, rfl, ?_⟩
    intro g hg
    rw [List.map_append, List.map_cons, List.nodup_middle, List.nodup_cons] at hnames
    have hne : g.name ≠ f.name := by
      intro heq
      exact hnames.1 (List.mem_append_left _ (List.mem_map.mpr ⟨g, hg, heq⟩))
    simpa using hne
  rw [Shape.member, hfind]
  rfl

/-- A field whose value is edited, among others that stay. -/
theorem edited_middle (hnames : (fields.map (·.name)).Nodup) {f : FieldShape Shape}
    (hf : f ∈ fields) {v v' : Value} (hedit : Edit f.shape v v')
    {before after : List (String × Value)}
    (hkeys : ((before ++ (f.name, v) :: after).map (·.1)).Nodup) (positional : Bool) :
    Record.Edited fields ⟨positional, before ++ (f.name, v) :: after⟩
      ⟨positional, before ++ (f.name, v') :: after⟩ := by
  have hkeys' : ((before ++ (f.name, v') :: after).map (·.1)).Nodup := by
    simpa using hkeys
  intro g hg
  by_cases heq : g.name = f.name
  · have hsame : g = f := List.inj_on_of_nodup_map hnames hg hf heq
    subst hsame
    simp only [Record.get?, lookup_middle hkeys, lookup_middle hkeys']
    exact .edited hedit
  · simp only [Record.get?, lookup_middle_of_ne heq]
    exact .same _

/-- A field that goes, among others that stay. -/
theorem edited_drop (hnames : (fields.map (·.name)).Nodup) {f : FieldShape Shape}
    (hf : f ∈ fields) {v : Value} (hdefault : f.IsDefault v) {before after : List (String × Value)}
    (hkeys : ((before ++ (f.name, v) :: after).map (·.1)).Nodup) :
    Record.Edited fields ⟨false, before ++ (f.name, v) :: after⟩ ⟨false, before ++ after⟩ := by
  intro g hg
  by_cases heq : g.name = f.name
  · have hsame : g = f := List.inj_on_of_nodup_map hnames hg hf heq
    subst hsame
    simp only [Record.get?, lookup_middle hkeys, lookup_eq_none_of_nodup hkeys]
    exact .dropped hdefault
  · simp only [Record.get?, lookup_middle_of_ne heq]
    exact .same _

theorem exists_middle {l : List α} {n : Nat} (h : n < l.length) :
    ∃ front a back, l = front ++ a :: back ∧ front.length = n := by
  refine ⟨l.take n, l[n], l.drop (n + 1), by simp, ?_⟩
  simp only [List.length_take]
  omega

theorem zip_keys (names : List String) (items : List Value) :
    ((names.zip items).map (·.1)).Sublist names := by
  induction names generalizing items with
  | nil => simp
  | cons name names ih =>
    cases items with
    | nil => simp
    | cons v items => simpa using ih items

variable {r : Record}

theorem record?_permute {members members' : List (Option String × Value)}
    (h : members.Perm members') (hread : (Value.object members).record? names = some r) :
    ∃ r', (Value.object members').record? names = some r' ∧ r.Edited fields r' := by
  obtain ⟨ms, rfl, hkeys, rfl⟩ := record?_object_iff.mp hread
  obtain ⟨ms', rfl, hperm⟩ := named_perm h
  have hknown : (known names ms).Perm (known names ms') := hperm.filter _
  refine ⟨_, record?_object_iff.mpr ⟨ms', rfl, (hknown.map _).nodup_iff.mp hkeys, rfl⟩, ?_⟩
  intro f hf
  simp only [Record.get?, lookup_perm hknown hkeys]
  exact .same _

theorem record?_add {before after : List (Option String × Value)} {name : String} {v : Value}
    (hname : name ∉ names) (hread : (Value.object (before ++ after)).record? names = some r) :
    (Value.object (before ++ (some name, v) :: after)).record? names = some r := by
  obtain ⟨ms, hms, hkeys, rfl⟩ := record?_object_iff.mp hread
  obtain ⟨b, a, rfl, rfl, rfl⟩ := named_eq_append hms
  have hsame : known names (b ++ (name, v) :: a) = known names (b ++ a) := by
    rw [known_append, known_append, known_cons_of_not_mem hname]
  apply record?_object_iff.mpr
  refine ⟨b ++ (name, v) :: a, by simp [named], ?_, by rw [hsame]⟩
  rwa [hsame]

theorem record?_drop (hfields : fields.map (·.name) = names) (hnames : names.Nodup)
    {before after : List (Option String × Value)} {f : FieldShape Shape} {v : Value}
    (hf : f ∈ fields) (hdefault : f.IsDefault v)
    (hread : (Value.object (before ++ (some f.name, v) :: after)).record? names = some r) :
    ∃ r', (Value.object (before ++ after)).record? names = some r' ∧ r.Edited fields r' := by
  have hname : f.name ∈ names := hfields ▸ List.mem_map_of_mem hf
  obtain ⟨ms, hms, hkeys, rfl⟩ := record?_object_iff.mp hread
  obtain ⟨b, n, a, rfl, hn, rfl, rfl⟩ := named_eq_middle hms
  cases hn
  rw [known_append, known_cons_of_mem hname] at hkeys ⊢
  have hrest : ((known names b ++ known names a).map (·.1)).Nodup := by
    rw [List.map_append, List.map_cons, List.nodup_middle, List.nodup_cons] at hkeys
    simpa using hkeys.2
  refine ⟨⟨false, known names (b ++ a)⟩, ?_, ?_⟩
  · exact record?_object_iff.mpr ⟨b ++ a, by simp [named], known_append names b a ▸ hrest, rfl⟩
  · rw [known_append]
    exact edited_drop (hfields ▸ hnames) hf hdefault hkeys

theorem record?_member (hfields : fields.map (·.name) = names) (hnames : names.Nodup)
    {before after : List (Option String × Value)} {name : Option String} {v v' : Value}
    (hedit : Edit ((Shape.record fields).member name) v v')
    (hread : (Value.object (before ++ (name, v) :: after)).record? names = some r) :
    ∃ r', (Value.object (before ++ (name, v') :: after)).record? names = some r' ∧
      r.Edited fields r' := by
  obtain ⟨ms, hms, hkeys, rfl⟩ := record?_object_iff.mp hread
  obtain ⟨b, n, a, rfl, rfl, rfl, rfl⟩ := named_eq_middle hms
  have hms' : named b ++ (some n, v') :: named a = named (b ++ (n, v') :: a) := by simp [named]
  refine ⟨⟨false, known names (b ++ (n, v') :: a)⟩,
    record?_object_iff.mpr ⟨b ++ (n, v') :: a, hms', ?_, rfl⟩, ?_⟩
  · by_cases hn : n ∈ names
    · rw [known_append, known_cons_of_mem hn] at hkeys ⊢
      simpa using hkeys
    · rw [known_append, known_cons_of_not_mem hn] at hkeys ⊢
      exact hkeys
  · by_cases hn : n ∈ names
    · obtain ⟨f, hf, rfl⟩ := List.mem_map.mp (hfields ▸ hn)
      rw [member_of_mem (hfields ▸ hnames) hf] at hedit
      rw [known_append, known_cons_of_mem hn] at hkeys ⊢
      rw [known_append, known_cons_of_mem hn]
      exact edited_middle (hfields ▸ hnames) hf hedit hkeys false
    · rw [known_append, known_append, known_cons_of_not_mem hn, known_cons_of_not_mem hn]
      exact fun f _ => .same _

theorem record?_item (hfields : fields.map (·.name) = names) (hnames : names.Nodup)
    {before after : List Value} {v v' : Value}
    (hedit : Edit ((Shape.record fields).item before.length) v v')
    (hread : (Value.array (before ++ v :: after)).record? names = some r) :
    ∃ r', (Value.array (before ++ v' :: after)).record? names = some r' ∧ r.Edited fields r' := by
  simp only [Value.record?] at hread ⊢
  split at hread
  case isFalse => cases hread
  case isTrue hlength =>
    have hlength' : (before ++ v' :: after).length ≤ names.length := by simpa using hlength
    have hlt : before.length < fields.length := by
      rw [← hfields] at hlength
      simp only [List.length_append, List.length_cons, List.length_map] at hlength
      omega
    obtain ⟨front, f, back, rfl, hfront⟩ := exists_middle hlt
    have hshape : (Shape.record (front ++ f :: back)).item before.length = f.shape := by
      simp [Shape.item, ← hfront]
    rw [hshape] at hedit
    have hzip (w : Value) : names.zip (before ++ w :: after) =
        (front.map (·.name)).zip before ++ (f.name, w) :: (back.map (·.name)).zip after := by
      rw [← hfields, List.map_append, List.zip_append (by simpa using hfront)]
      rfl
    have hkeys : ((names.zip (before ++ v :: after)).map (·.1)).Nodup :=
      hnames.sublist (zip_keys names _)
    cases hread
    rw [hzip] at hkeys ⊢
    refine ⟨_, if_pos hlength', ?_⟩
    rw [hzip]
    exact edited_middle (hfields ▸ hnames) (by simp) hedit hkeys true

/-- The fields of an edited record are those it had, edited. -/
theorem record?_edit (hfields : fields.map (·.name) = names) (hdistinct : distinct names = true)
    {v v' : Value} (hedit : Edit (.record fields) v v') (hread : v.record? names = some r) :
    ∃ r', v'.record? names = some r' ∧ r.Edited fields r' := by
  have hnames := distinct_iff.mp hdistinct
  cases hedit with
  | permute h => exact record?_permute h hread
  | add hname _ =>
    have hnot : _ ∉ names := fun hmem => by
      obtain ⟨f, hf, heq⟩ := List.mem_map.mp (hfields ▸ hmem)
      exact hname f hf heq
    exact ⟨r, record?_add hnot hread, fun f _ => .same _⟩
  | drop hf hdefault => exact record?_drop hfields hnames hf hdefault hread
  | member h => exact record?_member hfields hnames h hread
  | item h => exact record?_item hfields hnames h hread

/-- A record is read from its fields. -/
theorem Respects.record {build : Record → Option α} (hfields : fields.map (·.name) = names)
    (hdistinct : distinct names = true) (hbuild : Keeps fields build) :
    Respects (.record fields) fun v => v.record? names >>= build := by
  intro v v' a hedit hread
  obtain ⟨r, hr, ha⟩ := Option.bind_eq_some_iff.mp hread
  obtain ⟨r', hr', hedited⟩ := record?_edit hfields hdistinct hedit hr
  exact Option.bind_eq_some_iff.mpr ⟨r', hr', hbuild hedited ha⟩

end Record

/-! ### Choices -/

section Choice

variable {tag : String} {content : Value} {fields : List (FieldShape Shape)}

/-- A record with a tag before its fields. -/
def Shape.tagged (fields : List (FieldShape Shape)) : Shape :=
  .record (.required "type" .any :: fields)

/-- The members beside the tag. -/
def untagged (members : List (Option String × Value)) : List (Option String × Value) :=
  members.filter fun m => m.1 ≠ some "type"

/-- The tag is the only text among the members of its name. -/
def TaggedBy (tag : String) (members : List (String × Value)) : Prop :=
  members.filter (fun m => m.1 = "type") = [("type", .text tag)]

theorem tagged?_object_iff {members : List (Option String × Value)} :
    (Value.object members).tagged? = some (tag, content) ↔
      ∃ ms, members = named ms ∧ TaggedBy tag ms ∧ content = .object (untagged members) := by
  simp only [Value.tagged?, Option.bind_eq_some_iff, namedMembers_eq_some_iff, TaggedBy]
  constructor
  · rintro ⟨ms, hms, h⟩
    split at h
    · rename_i name text hfilter
      have hname : name = "type" := by
        have hmem := List.mem_filter.mp (hfilter ▸ List.mem_singleton_self (name, _))
        simpa using hmem.2
      cases h
      exact ⟨ms, hms, hname ▸ hfilter, rfl⟩
    · cases h
  · rintro ⟨ms, hms, hfilter, rfl⟩
    refine ⟨ms, hms, ?_⟩
    rw [hfilter]
    rfl

theorem untagged_append (before after : List (Option String × Value)) :
    untagged (before ++ after) = untagged before ++ untagged after :=
  List.filter_append ..

theorem untagged_cons_of_ne {name : String} (h : name ≠ "type") (v : Value)
    (members : List (Option String × Value)) :
    untagged ((some name, v) :: members) = (some name, v) :: untagged members :=
  List.filter_cons_of_pos (by simpa using h)

theorem taggedBy_middle_of_ne {before after : List (String × Value)} {name : String} {v : Value}
    (h : name ≠ "type") : TaggedBy tag (before ++ (name, v) :: after) ↔
      TaggedBy tag (before ++ after) := by
  simp [TaggedBy, List.filter_append, h]

theorem tagged?_permute {members members' : List (Option String × Value)}
    (h : members.Perm members') (hread : (Value.object members).tagged? = some (tag, content)) :
    ∃ content', (Value.object members').tagged? = some (tag, content') ∧
      Edit (.record fields) content content' := by
  obtain ⟨ms, rfl, htag, rfl⟩ := tagged?_object_iff.mp hread
  obtain ⟨ms', rfl, hperm⟩ := named_perm h
  have htag' : TaggedBy tag ms' := by
    have hfilter := (hperm.filter fun m => m.1 = "type").symm
    rw [htag] at hfilter
    exact List.perm_singleton.mp hfilter
  exact ⟨_, tagged?_object_iff.mpr ⟨ms', rfl, htag', rfl⟩, .permute (h.filter _)⟩

theorem tagged?_add {before after : List (Option String × Value)} {name : String} {v : Value}
    (htype : name ≠ "type") (hname : ∀ f ∈ fields, f.name ≠ name) (hlegible : v.legible = true)
    (hread : (Value.object (before ++ after)).tagged? = some (tag, content)) :
    ∃ content', (Value.object (before ++ (some name, v) :: after)).tagged? = some (tag, content') ∧
      Edit (.record fields) content content' := by
  obtain ⟨ms, hms, htag, rfl⟩ := tagged?_object_iff.mp hread
  obtain ⟨b, a, rfl, rfl, rfl⟩ := named_eq_append hms
  have htag' : TaggedBy tag (b ++ (name, v) :: a) := (taggedBy_middle_of_ne htype).mpr htag
  refine ⟨_, tagged?_object_iff.mpr ⟨b ++ (name, v) :: a, by simp [named], htag', rfl⟩, ?_⟩
  rw [untagged_append, untagged_append, untagged_cons_of_ne htype]
  exact .add hname hlegible

theorem tagged?_drop {before after : List (Option String × Value)} {f : FieldShape Shape}
    {v : Value} (htype : f.name ≠ "type") (hf : f ∈ fields) (hdefault : f.IsDefault v)
    (hread : (Value.object (before ++ (some f.name, v) :: after)).tagged? = some (tag, content)) :
    ∃ content', (Value.object (before ++ after)).tagged? = some (tag, content') ∧
      Edit (.record fields) content content' := by
  obtain ⟨ms, hms, htag, rfl⟩ := tagged?_object_iff.mp hread
  obtain ⟨b, n, a, rfl, hn, rfl, rfl⟩ := named_eq_middle hms
  cases hn
  have htag' := (taggedBy_middle_of_ne htype).mp htag
  refine ⟨_, tagged?_object_iff.mpr ⟨b ++ a, by simp [named], htag', rfl⟩, ?_⟩
  rw [untagged_append, untagged_append, untagged_cons_of_ne htype]
  exact .drop hf hdefault

theorem tagged_member {name : String} (h : name ≠ "type") :
    (Shape.tagged fields).member (some name) = (Shape.record fields).member (some name) := by
  have hne : ("type" = name) = False := by simpa using fun heq => h heq.symm
  simp [Shape.tagged, Shape.member, FieldShape.required, hne]

theorem tagged?_member {before after : List (Option String × Value)} {name : Option String}
    {v v' : Value} (hedit : Edit ((Shape.tagged fields).member name) v v')
    (hread : (Value.object (before ++ (name, v) :: after)).tagged? = some (tag, content)) :
    ∃ content', (Value.object (before ++ (name, v') :: after)).tagged? = some (tag, content') ∧
      Edit (.record fields) content content' := by
  obtain ⟨ms, hms, htag, rfl⟩ := tagged?_object_iff.mp hread
  obtain ⟨b, n, a, rfl, rfl, rfl, rfl⟩ := named_eq_middle hms
  by_cases hn : n = "type"
  · -- The tag is a text, of which there is no edit.
    have hmem : (n, v) ∈ [("type", Value.text tag)] := by
      rw [← htag]
      simp [hn]
    have hv : v = .text tag := by simpa [hn] using hmem
    exact absurd (hv ▸ hedit) (not_edit_string _)
  · rw [tagged_member hn] at hedit
    have htag' : TaggedBy tag (b ++ (n, v') :: a) :=
      (taggedBy_middle_of_ne hn).mpr ((taggedBy_middle_of_ne hn).mp htag)
    refine ⟨_, tagged?_object_iff.mpr ⟨b ++ (n, v') :: a, by simp [named], htag', rfl⟩, ?_⟩
    rw [untagged_append, untagged_append, untagged_cons_of_ne hn, untagged_cons_of_ne hn]
    exact .member hedit

theorem tagged?_array_iff {items : List Value} :
    (Value.array items).tagged? = some (tag, content) ↔
      ∃ rest, items = .text tag :: rest ∧ content = .array rest := by
  constructor
  · intro h
    unfold Value.tagged? at h
    split at h
    · rename_i heq
      cases heq
    · rename_i heq
      cases heq
      cases h
      exact ⟨_, rfl, rfl⟩
    · cases h
  · rintro ⟨rest, rfl, rfl⟩
    rfl

theorem tagged?_item {before after : List Value} {v v' : Value}
    (hedit : Edit ((Shape.tagged fields).item before.length) v v')
    (hread : (Value.array (before ++ v :: after)).tagged? = some (tag, content)) :
    ∃ content', (Value.array (before ++ v' :: after)).tagged? = some (tag, content') ∧
      Edit (.record fields) content content' := by
  obtain ⟨rest, hitems, rfl⟩ := tagged?_array_iff.mp hread
  cases before with
  | nil =>
    cases hitems
    exact absurd hedit (not_edit_string _)
  | cons first before =>
    cases hitems
    exact ⟨_, tagged?_array_iff.mpr ⟨_, rfl, rfl⟩, .item hedit⟩

/-- The tag of an edited choice is the tag it had, and its fields are edited. -/
theorem tagged?_edit (hfields : ∀ f ∈ fields, f.name ≠ "type") {v v' : Value}
    (hedit : Edit (.tagged fields) v v') (hread : v.tagged? = some (tag, content)) :
    ∃ content', v'.tagged? = some (tag, content') ∧ Edit (.record fields) content content' := by
  generalize hshape : Shape.tagged fields = shape at hedit
  cases hedit with
  | permute h => exact tagged?_permute h hread
  | add hname hlegible =>
    cases hshape
    obtain ⟨htype, hname⟩ := List.forall_mem_cons.mp hname
    exact tagged?_add (fun heq => htype heq.symm) hname hlegible hread
  | drop hf hdefault =>
    cases hshape
    rcases List.mem_cons.mp hf with rfl | hf
    · exact hdefault.elim
    · exact tagged?_drop (hfields _ hf) hf hdefault hread
  | member h =>
    subst hshape
    exact tagged?_member h hread
  | item h =>
    subst hshape
    exact tagged?_item h hread

end Choice

end Overseer.Json
