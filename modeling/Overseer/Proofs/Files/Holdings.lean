import Overseer.Files.Tree

/-!
What stands at each place.

`Tree.holding? place` tells of a file its content, of a directory only that it is one, and of both
the permission bits. In this view putting a node somewhere and erasing one change one place alone
(`Tree.holding?_put`, `Tree.holding?_erase`), because nothing is below what is no directory.
-/

namespace Overseer

/-- What stands at a place, without what is below it. -/
inductive Holding where
  | file (content : ByteArray) (mode : Nat)
  | directory (mode : Nat)

namespace Node

def holding : Node → Holding
  | file content mode => .file content mode
  | directory mode _ => .directory mode

/-! ### Going down -/

theorem get?_append (first second : Place) (n : Node) :
    get? (first ++ second) n = (get? first n).bind (get? second) := by
  induction first generalizing n with
  | nil => rfl
  | cons name rest ih =>
    cases hchild : n.entries.lookup name with
    | none => simp [get?, hchild]
    | some child => simp [get?, hchild, ih]

theorem get?_file_eq_none {content : ByteArray} {mode : Nat} {rest : Place} (h : rest ≠ []) :
    get? rest (file content mode) = none := by
  cases rest with
  | nil => exact absurd rfl h
  | cons name rest => rfl

/-- What is at a place is in a directory. -/
theorem exists_holder {top n : Node} {place : Place} (h : get? place top = some n)
    (hne : place ≠ []) :
    ∃ mode entries, get? place.dropLast top = some (directory mode entries) := by
  rw [← List.dropLast_concat_getLast hne, get?_append] at h
  obtain ⟨holder, hholder, hentry⟩ := Option.bind_eq_some_iff.mp h
  cases holder with
  | file content mode =>
    rw [get?_file_eq_none (List.cons_ne_nil _ _)] at hentry
    cases hentry
  | directory mode entries => exact ⟨mode, entries, hholder⟩

/-! ### Putting -/

/-- A directory stays one with the same bits when something is put below it. -/
theorem holding_put_above {top : Node} {place other : Place} (new : Node)
    (above : other <+: place) (hne : other ≠ place) :
    (get? other (put new place top)).map holding = (get? other top).map holding := by
  induction place generalizing top other with
  | nil => exact absurd (List.prefix_nil.mp above) hne
  | cons name rest ih =>
    cases top with
    | file content mode => rfl
    | directory mode es =>
      cases other with
      | nil =>
        simp only [put]
        split <;> rfl
      | cons first more =>
        obtain ⟨rfl, habove⟩ := List.cons_prefix_cons.mp above
        have hmore : more ≠ rest := fun h => hne (by rw [h])
        simp only [put]
        split
        · rename_i child hchild
          simp only [get?, entries, lookup_setEntry_self, hchild]
          exact ih habove hmore
        · exact absurd (List.prefix_nil.mp habove) hmore
        · rfl

/-! ### Erasing -/

theorem lookup_dropEntry_self (name : String) (entries : List (String × Node)) :
    (dropEntry name entries).lookup name = none := by
  refine List.lookup_eq_none_iff.mpr fun entry hentry => ?_
  have hne : entry.1 ≠ name := by simpa using (List.mem_filter.mp hentry).2
  simpa using hne.symm

theorem lookup_dropEntry_of_ne {name other : String} (h : other ≠ name)
    (entries : List (String × Node)) :
    (dropEntry name entries).lookup other = entries.lookup other := by
  induction entries with
  | nil => rfl
  | cons entry rest ih =>
    obtain ⟨key, node⟩ := entry
    by_cases hkey : key = name
    · subst hkey
      have hne : (other == key) = false := by simpa using h
      simpa [dropEntry, List.lookup_cons, hne] using ih
    · by_cases hother : other = key
      · simp [dropEntry, hkey, hother]
      · have hne : (other == key) = false := by simpa using hother
        simpa [dropEntry, hkey, List.lookup_cons, hne] using ih

/-- Erasing below a directory is erasing in the entry that leads there. -/
theorem erase_cons_cons (name next : String) (rest : Place) (mode : Nat)
    (es : List (String × Node)) :
    erase (name :: next :: rest) (directory mode es) =
      match es.lookup name with
      | some child => .directory mode (setEntry name (erase (next :: rest) child) es)
      | none => .directory mode es := by
  cases hchild : es.lookup name with
  | none => simp only [erase, hchild]
  | some child => simp only [erase, hchild]

theorem get?_erase_self {top : Node} {place rest : Place} (h : place ≠ []) :
    get? (place ++ rest) (erase place top) = none := by
  induction place generalizing top with
  | nil => exact absurd rfl h
  | cons name names ih =>
    cases top with
    | file content mode => cases names <;> rfl
    | directory mode es =>
      cases names with
      | nil => simp [erase, get?, entries, lookup_dropEntry_self]
      | cons next names =>
        rw [erase_cons_cons]
        cases hchild : es.lookup name with
        | none => simp [get?, entries, hchild]
        | some child =>
          have hbelow : get? (next :: names ++ rest) (erase (next :: names) child) = none :=
            ih (List.cons_ne_nil _ _)
          simpa [get?, entries, lookup_setEntry_self] using hbelow

theorem holding_erase_above {top : Node} {place other : Place} (above : other <+: place)
    (hne : other ≠ place) :
    (get? other (erase place top)).map holding = (get? other top).map holding := by
  induction place generalizing top other with
  | nil => exact absurd (List.prefix_nil.mp above) hne
  | cons name names ih =>
    cases top with
    | file content mode => cases names <;> rfl
    | directory mode es =>
      cases names with
      | nil =>
        cases other with
        | nil => rfl
        | cons first more =>
          obtain ⟨rfl, habove⟩ := List.cons_prefix_cons.mp above
          exact absurd (by rw [List.prefix_nil.mp habove]) hne
      | cons next names =>
        rw [erase_cons_cons]
        cases hchild : es.lookup name with
        | none => rfl
        | some child =>
          cases other with
          | nil => rfl
          | cons first more =>
            obtain ⟨rfl, habove⟩ := List.cons_prefix_cons.mp above
            have hmore : more ≠ next :: names := fun h => hne (by rw [h])
            simp only [get?, entries, lookup_setEntry_self, hchild]
            exact ih habove hmore

theorem get?_erase_of_not_prefix {top : Node} {place other : Place} (below : ¬ place <+: other)
    (above : ¬ other <+: place) : get? other (erase place top) = get? other top := by
  induction place generalizing top other with
  | nil => exact absurd List.nil_prefix below
  | cons name names ih =>
    cases other with
    | nil => exact absurd List.nil_prefix above
    | cons first more =>
      cases top with
      | file content mode => cases names <;> rfl
      | directory mode es =>
        by_cases hfirst : first = name
        · subst hfirst
          have hbelow : ¬ names <+: more := by simpa [List.cons_prefix_cons] using below
          have habove : ¬ more <+: names := by simpa [List.cons_prefix_cons] using above
          cases names with
          | nil => exact absurd List.nil_prefix hbelow
          | cons next names =>
            rw [erase_cons_cons]
            cases hchild : es.lookup first with
            | none => rfl
            | some child =>
              simp only [get?, entries, lookup_setEntry_self, hchild]
              exact ih hbelow habove
        · cases names with
          | nil => simp [erase, get?, entries, lookup_dropEntry_of_ne hfirst]
          | cons next names =>
            rw [erase_cons_cons]
            split <;> simp [get?, entries, lookup_setEntry_of_ne hfirst]

end Node

/-! ### Trees -/

namespace Tree

variable (t : Tree) {place other : Place}

/-- What stands at a place. -/
def holding? (place : Place) : Option Holding := (t.get? place).map Node.holding

/-- Something can be put at a place: it is in a directory, or at the top. -/
def HasRoom (place : Place) : Prop :=
  place = [] ∨ ∃ mode, t.holding? place.dropLast = some (.directory mode)

variable {t}

theorem holding?_eq_directory {mode : Nat} :
    t.holding? place = some (.directory mode) ↔ ∃ es, t.get? place = some (.directory mode es) := by
  unfold holding?
  cases t.get? place with
  | none => simp
  | some n => cases n <;> simp [Node.holding]

theorem holding?_eq_none : t.holding? place = none ↔ t.get? place = none :=
  Option.map_eq_none_iff

/-- What stands somewhere has room there. -/
theorem hasRoom_of_holding {h : Holding} (hplace : t.holding? place = some h) :
    t.HasRoom place := by
  obtain ⟨n, hn, -⟩ := Option.map_eq_some_iff.mp hplace
  by_cases hne : place = []
  · exact .inl hne
  · obtain ⟨mode, es, hholder⟩ := Node.exists_holder hn hne
    exact .inr ⟨mode, holding?_eq_directory.mpr ⟨es, hholder⟩⟩

/-- Nothing is below what is no directory. -/
theorem holding?_append_eq_none {rest : Place} (hne : rest ≠ [])
    (h : ∀ mode, t.holding? place ≠ some (.directory mode)) :
    t.holding? (place ++ rest) = none := by
  rw [holding?_eq_none, get?, Node.get?_append]
  cases hn : t.top.get? place with
  | none => rfl
  | some n =>
    cases n with
    | file content mode => exact Node.get?_file_eq_none hne
    | directory mode es => exact absurd (holding?_eq_directory.mpr ⟨es, hn⟩) (h mode)

/-- Putting a node changes its own place, if below it all stays. -/
theorem holding?_put {new : Node} (hroom : t.HasRoom place)
    (hbelow : ∀ rest, rest ≠ [] → (new.get? rest).map Node.holding = t.holding? (place ++ rest)) :
    (t.put place new).holding? other =
      if other = place then some new.holding else t.holding? other := by
  have hself : (t.put place new).get? place = some new := by
    rcases hroom with rfl | ⟨mode, hholder⟩
    · rfl
    · obtain ⟨es, hes⟩ := holding?_eq_directory.mp hholder
      exact Node.get?_put_self new hes rfl
  by_cases hother : other = place
  · rw [if_pos hother, hother, holding?, hself]
    rfl
  · rw [if_neg hother]
    by_cases hinside : place <+: other
    · obtain ⟨rest, rfl⟩ := hinside
      have hrest : rest ≠ [] := fun h => hother (by rw [h, List.append_nil])
      rw [← hbelow rest hrest]
      exact congrArg _ ((Node.get?_append ..).trans (congrArg (Option.bind · _) hself))
    · by_cases habove : other <+: place
      · exact Node.holding_put_above new habove hother
      · exact congrArg _ (Node.get?_put_of_not_prefix new hinside habove)

/-- Putting a file where no directory is changes that place alone. -/
theorem holding?_put_file {content : ByteArray} {mode : Nat} (hroom : t.HasRoom place)
    (h : ∀ mode, t.holding? place ≠ some (.directory mode)) :
    (t.put place (.file content mode)).holding? other =
      if other = place then some (.file content mode) else t.holding? other := by
  refine holding?_put hroom fun rest hrest => ?_
  rw [Node.get?_file_eq_none hrest, holding?_append_eq_none hrest h]
  rfl

/-- Erasing what is no directory changes that place alone. -/
theorem holding?_erase (hne : place ≠ []) (h : ∀ mode, t.holding? place ≠ some (.directory mode)) :
    (t.erase place).holding? other = if other = place then none else t.holding? other := by
  have hself (rest : Place) : (t.erase place).get? (place ++ rest) = none :=
    Node.get?_erase_self hne
  by_cases hother : other = place
  · rw [if_pos hother, hother, holding?_eq_none]
    simpa using hself []
  · rw [if_neg hother]
    by_cases hinside : place <+: other
    · obtain ⟨rest, rfl⟩ := hinside
      have hrest : rest ≠ [] := fun h => hother (by rw [h, List.append_nil])
      rw [holding?_append_eq_none hrest h, holding?_eq_none]
      exact hself rest
    · by_cases habove : other <+: place
      · exact Node.holding_erase_above habove hother
      · exact congrArg _ (Node.get?_erase_of_not_prefix hinside habove)

end Tree

end Overseer
