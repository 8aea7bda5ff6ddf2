import Overseer.Proofs.Lookup
import Overseer.Toml.Reader

/-!
Each name once.

However a document is put together from headers, dotted keys and inline tables, no table in it has a
name twice (`Toml.read_once`): a name is only added where it is free, and a table that is changed is
put back under its own name. So the entries of a table may be read in any order.
-/

namespace Overseer.Toml

/-- No table in the value has a name twice. -/
inductive Value.Once : Value → Prop where
  | string (text : String) : Once (.string text)
  | integer (n : Int) : Once (.integer n)
  | real (x : Float) : Once (.real x)
  | bool (b : Bool) : Once (.bool b)
  | datetime : Once .datetime
  | array {grows : Bool} {items : List Value} (each : ∀ v ∈ items, Once v) :
    Once (.array grows items)
  | table {origin : Origin} {entries : List (String × Value)}
    (names : (entries.map (·.1)).Nodup) (each : ∀ entry ∈ entries, Once entry.2) :
    Once (.table origin entries)

/-- No name stands twice among the entries or in a table below them. -/
structure Entries.Once (entries : Entries) : Prop where
  names : (entries.map (·.1)).Nodup
  each : ∀ entry ∈ entries, entry.2.Once

theorem Value.once_table_iff {origin : Origin} {entries : Entries} :
    Once (.table origin entries) ↔ entries.Once := by
  constructor
  · rintro ⟨⟩
    constructor <;> assumption
  · rintro ⟨names, each⟩
    exact .table names each

theorem Value.once_array_iff {grows : Bool} {items : List Value} :
    Once (.array grows items) ↔ ∀ v ∈ items, v.Once := by
  constructor
  · rintro ⟨⟩
    assumption
  · exact .array

theorem Entries.Once.toValue {t : Table} (once : t.entries.Once) : t.toValue.Once :=
  Value.once_table_iff.mpr once

/-! ### Entries -/

namespace Entries

variable {entries : Entries} {name : String} {v : Value}

theorem once_nil : Once [] := ⟨List.nodup_nil, nofun⟩

theorem Once.lookup (once : entries.Once) (h : entries.lookup name = some v) : v.Once :=
  once.each (name, v) ((lookup_eq_some_iff_mem once.names).mp h)

theorem mem_put {entry : String × Value} (h : entry ∈ put name v entries) :
    entry = (name, v) ∨ entry ∈ entries := by
  induction entries with
  | nil => exact .inl (List.mem_singleton.mp h)
  | cons first rest ih =>
    unfold put at h
    split at h
    · rcases List.mem_cons.mp h with rfl | h
      · exact .inl rfl
      · exact .inr (List.mem_cons_of_mem _ h)
    · rcases List.mem_cons.mp h with rfl | h
      · exact .inr List.mem_cons_self
      · exact (ih h).imp_right (List.mem_cons_of_mem _)

theorem names_put : (put name v entries).map (·.1) =
    if name ∈ entries.map (·.1) then entries.map (·.1) else entries.map (·.1) ++ [name] := by
  induction entries with
  | nil => rfl
  | cons first rest ih =>
    unfold put
    by_cases h : first.1 = name
    · simp [h]
    · have hne : name ≠ first.1 := fun heq => h heq.symm
      simp only [if_neg h, List.map_cons, List.mem_cons, hne, false_or, ih]
      split <;> rfl

theorem Once.put (once : entries.Once) (hv : v.Once) : (put name v entries).Once := by
  constructor
  · rw [names_put]
    split
    · exact once.names
    · exact List.nodup_append_comm.mp (List.nodup_cons.mpr ⟨by assumption, once.names⟩)
  · intro entry hentry
    rcases mem_put hentry with rfl | hentry
    · exact hv
    · exact once.each entry hentry

theorem Once.erase (once : entries.Once) : (erase name entries).Once := by
  constructor
  · exact once.names.sublist (List.filter_sublist.map _)
  · intro entry hentry
    exact once.each entry (List.mem_of_mem_filter hentry)

end Entries

/-! ### Changes of a table -/

/-- A change that leaves no name twice. -/
def KeepsOnce (change : Table → Option Table) : Prop :=
  ∀ t t', t.entries.Once → change t = some t' → t'.entries.Once

variable {change : Table → Option Table} {t t' : Table} {path : List String} {name : String}
  {v : Value}

theorem KeepsOnce.changeLast {items items' : List Value} (keeps : KeepsOnce change)
    (once : ∀ v ∈ items, v.Once) (h : Toml.changeLast change items = some items') :
    ∀ v ∈ items', v.Once := by
  induction items generalizing items' with
  | nil => cases h
  | cons first rest ih =>
    obtain ⟨hfirst, hrest⟩ := List.forall_mem_cons.mp once
    unfold Toml.changeLast at h
    split at h
    · cases h
    · rename_i origin entries hitems
      obtain ⟨rfl, rfl⟩ := List.cons.inj hitems
      obtain ⟨t', ht', rfl⟩ := Option.map_eq_some_iff.mp h
      have hchanged := keeps _ _ (Value.once_table_iff.mp hfirst) ht'
      exact List.forall_mem_singleton.mpr hchanged.toValue
    · cases h
    · rename_i hitems
      obtain ⟨rfl, rfl⟩ := List.cons.inj hitems
      obtain ⟨rest', hrest', rfl⟩ := Option.map_eq_some_iff.mp h
      exact List.forall_mem_cons.mpr ⟨hfirst, ih hrest hrest'⟩

/-- A change below a path keeps what the change itself keeps. -/
theorem KeepsOnce.changeAt (keeps : KeepsOnce change) (dotted inline : Bool) (path : List String) :
    KeepsOnce (Table.changeAt dotted inline change path) := by
  induction path with
  | nil => exact keeps
  | cons name path ih =>
    intro t t' once h
    unfold Table.changeAt at h
    split at h
    · obtain ⟨child, hchild, rfl⟩ := Option.map_eq_some_iff.mp h
      exact once.put (ih _ _ Entries.once_nil hchild).toValue
    · rename_i origin entries hlookup
      split at h
      · cases h
      · obtain ⟨child, hchild, rfl⟩ := Option.map_eq_some_iff.mp h
        have hbelow := Value.once_table_iff.mp (once.lookup hlookup)
        exact once.put (ih _ _ hbelow hchild).toValue
    · rename_i items hlookup
      obtain ⟨items', hitems', rfl⟩ := Option.map_eq_some_iff.mp h
      have hbelow := Value.once_array_iff.mp (once.lookup hlookup)
      exact once.put (.array (ih.changeLast hbelow hitems'))
    · cases h

theorem keepsOnce_insert (inline : Bool) (hv : v.Once) :
    KeepsOnce (Table.insert inline path name v) := by
  refine KeepsOnce.changeAt ?_ true inline path
  intro t t' once h
  dsimp only at h
  split at h
  · cases h
  · split at h
    · cases h
    · cases h
      exact once.put hv

/-! ### Drafts -/

namespace Draft

/-- Neither the root nor the current table has a name twice. -/
structure Once (d : Draft) : Prop where
  root : d.root.entries.Once
  current : d.current.entries.Once

theorem keepsOnce_pushTable {child : Table} (hchild : child.entries.Once) :
    KeepsOnce (pushTable name child) := by
  intro t t' once h
  unfold pushTable at h
  split at h
  · cases h
    exact once.put (.array (List.forall_mem_singleton.mpr hchild.toValue))
  · rename_i items hlookup
    cases h
    have hitems := Value.once_array_iff.mp (once.lookup hlookup)
    have hlast := List.forall_mem_singleton.mpr hchild.toValue
    exact once.put (.array (List.forall_mem_append.mpr ⟨hitems, hlast⟩))
  · cases h

theorem keepsOnce_placeTable {child : Table} (hchild : child.entries.Once) :
    KeepsOnce (placeTable name child) := by
  intro t t' once h
  unfold placeTable at h
  split at h
  · cases h
    exact once.put hchild.toValue
  · cases h

theorem once_reopened (once : t.entries.Once) (h : reopened name t = some t') :
    t'.entries.Once := by
  unfold reopened at h
  split at h
  · cases h
    exact Entries.once_nil
  · rename_i origin entries hlookup
    split at h
    · cases h
      exact Value.once_table_iff.mp (once.lookup hlookup)
    · cases h
  · cases h

theorem once_lookUp (once : t.entries.Once) (h : lookUp path t = some t') : t'.entries.Once := by
  induction path generalizing t with
  | nil =>
    cases h
    exact once
  | cons name path ih =>
    unfold lookUp at h
    split at h
    · cases h
      exact Entries.once_nil
    · rename_i origin entries hlookup
      split at h
      · cases h
      · exact ih (Value.once_table_iff.mp (once.lookup hlookup)) h
    · rename_i items hlookup
      split at h
      · rename_i origin entries hlast
        have hitems := Value.once_array_iff.mp (once.lookup hlookup)
        exact ih (Value.once_table_iff.mp (hitems _ (List.mem_of_getLast? hlast))) h
      · cases h
    · cases h

variable {d d' : Draft}

theorem Once.close (once : d.Once) (h : d.close = some t) : t.entries.Once := by
  unfold Draft.close at h
  split at h
  · cases h
    exact once.current
  · rename_i name hname
    refine KeepsOnce.changeAt ?_ false false d.path.dropLast _ _ once.root h
    split
    · exact keepsOnce_pushTable once.current
    · exact keepsOnce_placeTable once.current

theorem Once.insert (once : d.Once) (hv : v.Once) (h : d.insert path name v = some d') :
    d'.Once := by
  obtain ⟨current, hcurrent, rfl⟩ := Option.map_eq_some_iff.mp h
  exact ⟨once.root, keepsOnce_insert false hv _ _ once.current hcurrent⟩

theorem Once.openTable (once : d.Once) (h : d.openTable path name = some d') : d'.Once := by
  obtain ⟨root, hroot, h⟩ := Option.bind_eq_some_iff.mp h
  obtain ⟨current, hcurrent, h⟩ := Option.bind_eq_some_iff.mp h
  obtain ⟨parent, hparent, hreopened⟩ := Option.bind_eq_some_iff.mp hcurrent
  obtain ⟨root', hroot', h⟩ := Option.bind_eq_some_iff.mp h
  cases h
  have hclosed := once.close hroot
  constructor
  · refine KeepsOnce.changeAt ?_ false false path _ _ hclosed hroot'
    intro t t' honce heq
    cases heq
    exact honce.erase
  · exact once_reopened (once_lookUp hclosed hparent) hreopened

theorem Once.openRepeated (once : d.Once) (h : d.openRepeated path name = some d') : d'.Once := by
  obtain ⟨root, hroot, h⟩ := Option.bind_eq_some_iff.mp h
  obtain ⟨parent, hparent, h⟩ := Option.bind_eq_some_iff.mp h
  obtain ⟨root', hroot', h⟩ := Option.bind_eq_some_iff.mp h
  have hopened : root'.entries.Once := by
    refine KeepsOnce.changeAt ?_ false false path _ _ (once.close hroot) hroot'
    intro t t' honce heq
    cases heq
    exact honce
  split at h
  · cases h
    exact ⟨hopened, Entries.once_nil⟩
  · cases h
    exact ⟨hopened, Entries.once_nil⟩
  · cases h

end Draft

/-! ### Values -/

theorem once_insertPairs {pairs : List (List String × Value)} (once : t.entries.Once)
    (each : ∀ pair ∈ pairs, pair.2.Once) (h : insertPairs t pairs = some t') :
    t'.entries.Once := by
  induction pairs generalizing t with
  | nil =>
    cases h
    exact once
  | cons pair rest ih =>
    obtain ⟨hpair, hrest⟩ := List.forall_mem_cons.mp each
    unfold insertPairs at h
    split at h
    · obtain ⟨t₁, ht₁, h⟩ := Option.bind_eq_some_iff.mp h
      exact ih (keepsOnce_insert true hpair _ _ once ht₁) hrest h
    · cases h

theorem once_inlineTable {pairs : List (List String × Value)} (each : ∀ pair ∈ pairs, pair.2.Once)
    (h : inlineTable pairs = some v) : v.Once := by
  obtain ⟨t, ht, rfl⟩ := Option.map_eq_some_iff.mp h
  exact (once_insertPairs Entries.once_nil each ht).toValue

/-- No value that is read has a name twice, and neither have the items of an array or the values
between braces. -/
structure ReadsOnce (room : Nat) : Prop where
  value : ∀ depth text v rest, readValue room depth text = some (v, rest) → v.Once
  items : ∀ depth text vs rest, readItems room depth text = some (vs, rest) → ∀ v ∈ vs, v.Once
  pairs : ∀ depth text ps rest, readPairs room depth text = some (ps, rest) →
    ∀ pair ∈ ps, pair.2.Once

theorem ReadsOnce.next_value {room : Nat} (reads : ReadsOnce room) {depth : Nat}
    {text rest : List Char} (h : readValue (room + 1) depth text = some (v, rest)) : v.Once := by
  unfold readValue at h
  split at h
  · obtain ⟨read, -, heq⟩ := Option.map_eq_some_iff.mp h
    cases heq
    exact .string _
  · obtain ⟨read, -, heq⟩ := Option.map_eq_some_iff.mp h
    cases heq
    exact .string _
  · split at h
    · obtain ⟨⟨items, after⟩, hitems, heq⟩ := Option.map_eq_some_iff.mp h
      cases heq
      exact .array (reads.items _ _ _ _ hitems)
    · cases h
  · split at h
    · split at h
      · obtain ⟨read, hread, heq⟩ := Option.map_eq_some_iff.mp h
        cases heq
        exact once_inlineTable (List.forall_mem_nil _) hread
      · obtain ⟨⟨pairs, after⟩, hpairs, h⟩ := Option.bind_eq_some_iff.mp h
        obtain ⟨read, hread, heq⟩ := Option.map_eq_some_iff.mp h
        cases heq
        exact once_inlineTable (reads.pairs _ _ _ _ hpairs) hread
    · cases h
  · cases h
    exact .bool true
  · cases h
    exact .bool false
  · split at h
    · obtain ⟨read, -, heq⟩ := Option.map_eq_some_iff.mp h
      cases heq
      exact .datetime
    · split at h
      · cases h
        exact .real _
      · obtain ⟨read, -, heq⟩ := Option.map_eq_some_iff.mp h
        cases heq
        exact .integer _

theorem ReadsOnce.next_items {room : Nat} (reads : ReadsOnce room) {depth : Nat}
    {text rest : List Char} {vs : List Value}
    (h : readItems (room + 1) depth text = some (vs, rest)) : ∀ v ∈ vs, v.Once := by
  unfold readItems at h
  obtain ⟨next, -, h⟩ := Option.bind_eq_some_iff.mp h
  split at h
  · cases h
    nofun
  · obtain ⟨⟨v, after⟩, hv, h⟩ := Option.bind_eq_some_iff.mp h
    obtain ⟨between, -, h⟩ := Option.bind_eq_some_iff.mp h
    have hfirst := reads.value _ _ _ _ hv
    dsimp only at h
    split at h
    · obtain ⟨⟨more, final⟩, hmore, heq⟩ := Option.map_eq_some_iff.mp h
      cases heq
      exact List.forall_mem_cons.mpr ⟨hfirst, reads.items _ _ _ _ hmore⟩
    · cases h
      exact List.forall_mem_singleton.mpr hfirst
    · cases h

theorem ReadsOnce.next_pairs {room : Nat} (reads : ReadsOnce room) {depth : Nat}
    {text rest : List Char} {ps : List (List String × Value)}
    (h : readPairs (room + 1) depth text = some (ps, rest)) : ∀ pair ∈ ps, pair.2.Once := by
  unfold readPairs at h
  obtain ⟨⟨key, after⟩, -, h⟩ := Option.bind_eq_some_iff.mp h
  dsimp only at h
  split at h
  · obtain ⟨⟨v, more⟩, hv, h⟩ := Option.bind_eq_some_iff.mp h
    have hfirst := reads.value _ _ _ _ hv
    dsimp only at h
    split at h
    · obtain ⟨⟨others, final⟩, hothers, heq⟩ := Option.map_eq_some_iff.mp h
      cases heq
      exact List.forall_mem_cons.mpr ⟨hfirst, reads.pairs _ _ _ _ hothers⟩
    · cases h
      exact List.forall_mem_singleton.mpr hfirst
    · cases h
  · cases h

theorem readsOnce (room : Nat) : ReadsOnce room := by
  induction room with
  | zero =>
    constructor
    · intro depth text v rest h
      cases h
    · intro depth text vs rest h
      cases h
    · intro depth text ps rest h
      cases h
  | succ room ih =>
    constructor
    · intro depth text v rest h
      exact ih.next_value h
    · intro depth text vs rest h
      exact ih.next_items h
    · intro depth text ps rest h
      exact ih.next_pairs h

/-! ### Documents -/

/-- A line leaves no name twice. -/
theorem Draft.Once.readLine {d d' : Draft} {text rest : List Char} (once : d.Once)
    (h : readLine d text = some (d', rest)) : d'.Once := by
  unfold Toml.readLine at h
  split at h
  · obtain ⟨⟨⟨path, name⟩, after⟩, -, h⟩ := Option.bind_eq_some_iff.mp h
    dsimp only at h
    split at h
    · obtain ⟨next, -, h⟩ := Option.bind_eq_some_iff.mp h
      obtain ⟨d₁, hd₁, heq⟩ := Option.map_eq_some_iff.mp h
      cases heq
      exact once.openRepeated hd₁
    · cases h
  · obtain ⟨⟨⟨path, name⟩, after⟩, -, h⟩ := Option.bind_eq_some_iff.mp h
    dsimp only at h
    split at h
    · obtain ⟨next, -, h⟩ := Option.bind_eq_some_iff.mp h
      obtain ⟨d₁, hd₁, heq⟩ := Option.map_eq_some_iff.mp h
      cases heq
      exact once.openTable hd₁
    · cases h
  · split at h
    · cases h
      exact once
    · obtain ⟨⟨⟨path, name⟩, after⟩, -, h⟩ := Option.bind_eq_some_iff.mp h
      dsimp only at h
      split at h
      · obtain ⟨⟨v, more⟩, hv, h⟩ := Option.bind_eq_some_iff.mp h
        obtain ⟨next, -, h⟩ := Option.bind_eq_some_iff.mp h
        obtain ⟨d₁, hd₁, heq⟩ := Option.map_eq_some_iff.mp h
        cases heq
        exact once.insert ((readsOnce _).value _ _ _ _ hv) hd₁
      · cases h

theorem Draft.Once.readLines {room : Nat} {d : Draft} {text : List Char} (once : d.Once)
    (h : readLines room d text = some t) : t.entries.Once := by
  induction room generalizing d text with
  | zero => cases h
  | succ room ih =>
    unfold Toml.readLines at h
    split at h
    · exact once.close h
    · obtain ⟨⟨d', rest⟩, hline, h⟩ := Option.bind_eq_some_iff.mp h
      exact ih (once.readLine hline) h

/-- No table of a document has a name twice. -/
theorem read_once {text : String} (h : read text = some t) : t.entries.Once :=
  Draft.Once.readLines ⟨Entries.once_nil, Entries.once_nil⟩ h

end Overseer.Toml
