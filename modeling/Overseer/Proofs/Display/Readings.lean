import Overseer.Display
import Overseer.Files.Tree

/-!
What a reading of the display tells.

A reading depends on nothing but the power attributes that can be read: it is on if one of them
names an unblanked backlight, off if there are some but none of them does, and unknown if there are
none (`Display.read_tells`). So the order in which the directory is listed does not matter
(`Display.Relisted.reading_eq`). A monitor announces what differs from the state that it knows
(`Display.observe_announces`).
-/

namespace Overseer.Display

/-- What a reading tells of the power attributes that are shown. -/
structure Tells (shown : String → Prop) (reading : Option Bool) : Prop where
  on : reading = some true ↔ ∃ text, shown text ∧ Text.trim text = unblanked
  off : reading = some false ↔
    (∃ text, shown text) ∧ ∀ text, shown text → Text.trim text ≠ unblanked
  unknown : reading = none ↔ ∀ text, ¬shown text

/-- Attributes decide the reading. -/
theorem Tells.eq {shown shown' : String → Prop} {reading reading' : Option Bool}
    (h : Tells shown reading) (h' : Tells shown' reading')
    (same : ∀ text, shown' text ↔ shown text) : reading' = reading := by
  obtain rfl : shown' = shown := funext fun text => propext (same text)
  cases reading with
  | none => exact h'.unknown.mpr (h.unknown.mp rfl)
  | some on =>
    cases on with
    | true => exact h'.on.mpr (h.on.mp rfl)
    | false => exact h'.off.mpr (h.off.mp rfl)

/-- The state of some attributes counts those that were read. -/
theorem stateOf_tells (readings : List (Except IoFault String)) :
    Tells (fun text => .ok text ∈ readings) (stateOf readings) := by
  have hmem : ∀ text, text ∈ readings.filterMap Except.toOption ↔ .ok text ∈ readings := by
    intro text
    rw [List.mem_filterMap]
    constructor
    · rintro ⟨reading, hreading, htext⟩
      cases reading with
      | error fault => cases htext
      | ok _ =>
        cases htext
        exact hreading
    · intro htext
      exact ⟨_, htext, rfl⟩
  unfold stateOf
  simp only [← hmem]
  generalize readings.filterMap Except.toOption = values
  cases values with
  | nil => exact ⟨by simp, by simp, by simp⟩
  | cons first rest =>
    have hsome : ¬∀ text, text ∉ first :: rest := by
      intro h
      exact h first List.mem_cons_self
    exact ⟨by simp, by simp, iff_of_false (Option.some_ne_none _) hsome⟩

/-! ### The directory of backlights -/

variable {dir : Path} {tree tree' : Tree}

/-- Some backlight has a power attribute with this text. -/
def Shows (dir : Path) (tree : Tree) (text : String) : Prop :=
  ∃ entries, tree.list dir = .ok entries ∧
    ∃ entry ∈ entries, tree.readText (entry.join "bl_power") = .ok text

/-- A reading looks at every backlight that is listed. -/
theorem run_read (dir : Path) (tree : Tree) :
    (Tree.run (read dir) tree).1 =
      match tree.list dir with
      | .error _ => none
      | .ok entries =>
        stateOf (entries.map fun entry => tree.readText (entry.join "bl_power")) := by
  have hlist : Tree.run (Files.list dir) tree = (tree.list dir, tree) := rfl
  unfold read
  rw [Tree.run_bind, hlist]
  cases tree.list dir with
  | error fault => rfl
  | ok entries =>
    have hentry : ∀ entry : Path, Tree.run (Files.readText (entry.join "bl_power")) tree =
        (tree.readText (entry.join "bl_power"), tree) := by
      intro entry
      rfl
    simp only [Tree.run_bind, Tree.run_each hentry]
    rfl

theorem read_tells (dir : Path) (tree : Tree) :
    Tells (Shows dir tree) (Tree.run (read dir) tree).1 := by
  rw [run_read]
  cases hlist : tree.list dir with
  | error fault =>
    have hnone : ∀ text, ¬Shows dir tree text := by
      rintro text ⟨entries, hentries, -⟩
      cases hlist.symm.trans hentries
    exact ⟨by simp [hnone], by simp [hnone], by simp [hnone]⟩
  | ok entries =>
    have hshows : Shows dir tree = fun text =>
        .ok text ∈ entries.map fun entry => tree.readText (entry.join "bl_power") := by
      funext text
      simp [Shows, hlist]
    rw [hshows]
    exact stateOf_tells _

/-- The same backlights with the same power attributes, listed in any other order. -/
structure Relisted (dir : Path) (tree tree' : Tree) : Prop where
  listed : ∃ entries entries', tree.list dir = .ok entries ∧ tree'.list dir = .ok entries' ∧
    entries'.Perm entries
  attributes : ∀ entries, tree.list dir = .ok entries → ∀ entry ∈ entries,
    tree'.readText (entry.join "bl_power") = tree.readText (entry.join "bl_power")

theorem Relisted.shows_iff (h : Relisted dir tree tree') (text : String) :
    Shows dir tree' text ↔ Shows dir tree text := by
  obtain ⟨entries, entries', hentries, hentries', hperm⟩ := h.listed
  simp only [Shows, hentries, hentries', Except.ok.injEq, exists_eq_left', hperm.mem_iff]
  refine exists_congr fun entry => and_congr_right fun hentry => ?_
  rw [h.attributes entries hentries entry hentry]

/-- The order of the listing does not matter. -/
theorem Relisted.reading_eq (h : Relisted dir tree tree') :
    (Tree.run (read dir) tree').1 = (Tree.run (read dir) tree).1 :=
  (read_tells dir tree).eq (read_tells dir tree') h.shows_iff

/-- The directory of these backlights, each with its power attribute. -/
def backlights (powers : List (String × String)) : Tree :=
  let panels := powers.map fun (name, power) =>
    (name, .directory Node.directoryMode [("bl_power", .file power.toUTF8 Node.fileMode)])
  ⟨.directory Node.directoryMode [("backlight", .directory Node.directoryMode panels)]⟩

/-- Two backlights, listed the other way round. -/
example :
    Relisted ⟨"/backlight"⟩ (backlights [("left", "0\n"), ("right", "4\n")])
      (backlights [("right", "4\n"), ("left", "0\n")]) := by
  refine ⟨⟨[⟨"/backlight/left"⟩, ⟨"/backlight/right"⟩], _, rfl, rfl, .swap ..⟩, ?_⟩
  intro entries hentries
  obtain rfl : [⟨"/backlight/left"⟩, ⟨"/backlight/right"⟩] = entries := Except.ok.inj hentries
  exact List.forall_mem_cons.mpr ⟨rfl, List.forall_mem_singleton.mpr rfl⟩

/-! ### Announcing -/

variable (known : Bool) (reading : Option Bool)

/-- What differs from the known state is announced, and nothing else. -/
theorem observe_announces (b : Bool) :
    (observe known reading).2 = some b ↔ reading = some b ∧ b ≠ known := by
  cases reading with
  | none => simp [observe]
  | some now =>
    by_cases hsame : now = known
    · simp only [observe, if_pos hsame]
      constructor
      · nofun
      · rintro ⟨hb, hdiffers⟩
        cases hb
        exact absurd hsame hdiffers
    · simp only [observe, if_neg hsame, Option.some.injEq]
      constructor
      · rintro rfl
        exact ⟨rfl, hsame⟩
      · exact fun h => h.1

/-- The known state is what was announced last, -/
theorem observe_known_announced :
    (observe known reading).1 = (observe known reading).2.getD known := by
  cases reading with
  | none => rfl
  | some now => by_cases hsame : now = known <;> simp [observe, hsame]

/-- and what was read last. -/
theorem observe_known_read : (observe known reading).1 = reading.getD known := by
  cases reading with
  | none => rfl
  | some now => by_cases hsame : now = known <;> simp [observe, hsame]

end Overseer.Display
