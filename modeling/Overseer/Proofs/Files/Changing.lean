import Overseer.Proofs.Files.Resolving

/-!
What file operations change.

An operation that goes through changes what stands at one place (`Tree.Sets`), or at two when it
moves a file, and tells by that what stood there before. The places are those that its paths name.
-/

namespace Overseer

namespace Holding

def mode : Holding → Nat
  | file _ mode => mode
  | directory mode => mode

def withMode (mode : Nat) : Holding → Holding
  | file content _ => .file content mode
  | directory _ => .directory mode

end Holding

@[simp] theorem Node.mode_holding (n : Node) : n.holding.mode = n.mode := by
  cases n <;> rfl

namespace Tree

variable {t t' t'' : Tree} {path source : Path} {place : Place}

/-- One place is changed, and nothing else. -/
def Sets (t : Tree) (place : Place) (h : Option Holding) (t' : Tree) : Prop :=
  ∀ other, t'.holding? other = if other = place then h else t.holding? other

/-- Nothing is changed but at one place. -/
def AgreesBut (t : Tree) (place : Place) (t' : Tree) : Prop :=
  ∀ other, other ≠ place → t'.holding? other = t.holding? other

/-- What stands at a place is no directory. -/
def NoDirectory (t : Tree) (place : Place) : Prop :=
  ∀ mode, t.holding? place ≠ some (.directory mode)

theorem AgreesBut.refl (t : Tree) (place : Place) : t.AgreesBut place t := fun _ _ => rfl

theorem AgreesBut.trans (h : t.AgreesBut place t') (h' : t'.AgreesBut place t'') :
    t.AgreesBut place t'' :=
  fun other hother => (h' other hother).trans (h other hother)

theorem Sets.self {h : Option Holding} (hsets : t.Sets place h t') : t'.holding? place = h := by
  rw [hsets place, if_pos rfl]

theorem Sets.agreesBut {h : Option Holding} (hsets : t.Sets place h t') : t.AgreesBut place t' :=
  fun other hother => by rw [hsets other, if_neg hother]

/-- Where no directory goes and none comes, the directories stay. -/
theorem AgreesBut.sameDirectories (h : t.AgreesBut place t') (hbefore : t.NoDirectory place)
    (hafter : t'.NoDirectory place) : t.SameDirectories t' := by
  intro other mode
  by_cases hother : other = place
  · rw [hother]
    exact iff_of_false (hafter mode) (hbefore mode)
  · rw [h other hother]

theorem NoDirectory.of_none (h : t.holding? place = none) : t.NoDirectory place := by
  intro mode
  rw [h]
  exact nofun

theorem NoDirectory.of_file {content : ByteArray} {mode : Nat}
    (h : t.holding? place = some (.file content mode)) : t.NoDirectory place := by
  intro mode
  rw [h]
  exact nofun

/-! ### Filling and clearing a place -/

theorem target_ok {rights : List Right} {mode bits : Nat}
    (h : t.target path rights mode = .ok (place, bits)) :
    place = path.place ∧ t.HasRoom path.place ∧ t.NoDirectory path.place := by
  unfold target at h
  obtain ⟨slot, hslot, h⟩ := Except.bind_eq_ok h
  obtain ⟨route, hslots⟩ := slot_ok hslot
  obtain ⟨hbad, h⟩ := Except.unthrown_eq_ok h
  have hdots : slot.isDots = false := (Bool.or_eq_false_iff.mp hbad).1
  obtain ⟨node?, hnode, h⟩ := Except.bind_eq_ok h
  have hholding := (hslots.node?_eq hnode).1
  have hplace := hslots.place_eq hdots
  have hroom := hslots.hasRoom hdots
  cases node? with
  | none =>
    obtain ⟨-, -, h⟩ := Except.bind_eq_ok h
    cases h
    exact ⟨hplace, hroom, .of_none hholding.symm⟩
  | some node =>
    cases node with
    | directory mode es => cases h
    | file content mode =>
      obtain ⟨-, -, h⟩ := Except.bind_eq_ok h
      cases h
      exact ⟨hplace, hroom, .of_file hholding.symm⟩

/-- What is put where content for a path goes can be found there. -/
theorem target_isPresent {rights : List Right} {mode bits : Nat} {place : Place} {h : Holding}
    (htarget : t.target path rights mode = .ok (place, bits)) (hkeeps : t.Keeps t')
    (hthere : t'.holding? path.place = some h) : t'.isPresent path = true := by
  unfold target at htarget
  obtain ⟨slot, hslot, htarget⟩ := Except.bind_eq_ok htarget
  obtain ⟨route, hslots⟩ := slot_ok hslot
  obtain ⟨hbad, htarget⟩ := Except.unthrown_eq_ok htarget
  obtain ⟨node?, hnode, -⟩ := Except.bind_eq_ok htarget
  exact hslots.isPresent hkeeps (hslots.node?_eq hnode).2 (Bool.or_eq_false_iff.mp hbad).2 hthere

theorem sets_put_file (content : ByteArray) (mode : Nat) (hroom : t.HasRoom place)
    (h : t.NoDirectory place) :
    t.Sets place (some (.file content mode)) (t.put place (.file content mode)) :=
  fun _ => holding?_put_file hroom h

/-- A file that is put where content for a path goes is found there. -/
theorem put_target {rights : List Right} {mode bits : Nat} {place : Place}
    (htarget : t.target path rights mode = .ok (place, bits)) (content : ByteArray) (mode' : Nat) :
    (t.put place (.file content mode')).isPresent path = true ∧
      t.Sets path.place (some (.file content mode')) (t.put place (.file content mode')) := by
  obtain ⟨rfl, hroom, hno⟩ := target_ok htarget
  have hsets := sets_put_file content mode' hroom hno
  have hsame := hsets.agreesBut.sameDirectories hno (.of_file hsets.self)
  exact ⟨target_isPresent htarget hsame.keeps hsets.self, hsets⟩

/-- A copy reads a file and makes or replaces one. A file that is copied onto itself is emptied. -/
theorem copy_ok (h : t.copy source path = .ok t') :
    t.NoDirectory path.place ∧ ∃ content mode mode',
      t.holding? source.place = some (.file content mode) ∧
      t.Sets path.place
        (some (.file (if path.place = source.place then .empty else content) mode')) t' := by
  unfold copy at h
  obtain ⟨found, hfound, h⟩ := Except.bind_eq_ok h
  obtain ⟨hfrom, hplace, -⟩ := find_ok hfound
  have hsource : t.holding? source.place = some found.node.holding := by
    rw [← hplace]
    exact holding?_of_from hfrom
  obtain ⟨-, -, h⟩ := Except.bind_eq_ok h
  split at h
  · cases h
  · rename_i content mode hnode
    obtain ⟨⟨place, bits⟩, htarget, h⟩ := Except.bind_eq_ok h
    obtain ⟨rfl, hroom, hno⟩ := target_ok htarget
    rw [hnode] at hsource
    rw [hplace] at h
    cases h
    exact ⟨hno, content, mode, _, hsource, sets_put_file _ _ hroom hno⟩

/-- New permission bits change nothing else. -/
theorem setMode_ok {mode : Nat} (h : t.setMode path mode = .ok t') :
    ∃ before, t.holding? path.place = some before ∧
      t.Sets path.place (some (before.withMode mode)) t' := by
  unfold setMode at h
  obtain ⟨found, hfound, h⟩ := Except.bind_eq_ok h
  cases h
  obtain ⟨hfrom, hplace, -⟩ := find_ok hfound
  have hthere : t.holding? path.place = some found.node.holding := by
    rw [← hplace]
    exact holding?_of_from hfrom
  refine ⟨_, hthere, ?_⟩
  have hnew : found.node.holding.withMode mode = (found.node.withMode mode).holding := by
    cases found.node <;> rfl
  rw [hplace, hnew]
  intro other
  refine holding?_put (hasRoom_of_holding hthere) fun rest hrest => ?_
  have hsame : (found.node.withMode mode).get? rest = found.node.get? rest := by
    cases rest with
    | nil => exact absurd rfl hrest
    | cons name rest => cases found.node <;> rfl
  rw [hsame, holding?, get?, Node.get?_append, ← hplace, hfrom.get?_eq]
  rfl

/-- A file that is moved leaves its place and takes another, where it is found then. -/
theorem rename_ok (h : t.rename source path = .ok t') (hne : source.place ≠ path.place) :
    ∃ content mode, t.holding? source.place = some (.file content mode) ∧
      t.NoDirectory path.place ∧
      (∀ other, t'.holding? other =
        if other = path.place then some (.file content mode)
        else if other = source.place then none else t.holding? other) ∧
      t'.isPresent path = true := by
  unfold rename at h
  obtain ⟨origin, horigin, h⟩ := Except.bind_eq_ok h
  obtain ⟨goal, hgoal, h⟩ := Except.bind_eq_ok h
  obtain ⟨route, hfrom⟩ := slot_ok horigin
  obtain ⟨route', hto⟩ := slot_ok hgoal
  obtain ⟨hdots, h⟩ := Except.unthrown_eq_ok h
  obtain ⟨hdots, hdots'⟩ := Bool.or_eq_false_iff.mp hdots
  obtain ⟨node?, hnode, h⟩ := Except.bind_eq_ok h
  have hthere := (hfrom.node?_eq hnode).1
  cases node? with
  | none => cases h
  | some node =>
    cases node with
    | directory mode es => cases h
    | file content mode =>
      obtain ⟨replaced, hreplaced, h⟩ := Except.bind_eq_ok h
      obtain ⟨hgoalThere, hadmissible⟩ := hto.node?_eq hreplaced
      obtain ⟨hslash, h⟩ := Except.unthrown_eq_ok h
      obtain ⟨-, hslash'⟩ := Bool.or_eq_false_iff.mp hslash
      rw [hfrom.place_eq hdots, hto.place_eq hdots', if_neg hne] at h
      obtain ⟨-, -, h⟩ := Except.bind_eq_ok h
      obtain ⟨hreplacedFile, h⟩ := Except.unthrown_eq_ok h
      cases h
      have hsource : t.holding? source.place = some (.file content mode) := hthere.symm
      have hno : t.NoDirectory path.place := by
        intro bits hbits
        rw [hbits] at hgoalThere
        obtain ⟨node, rfl, hdirectory⟩ := Option.map_eq_some_iff.mp hgoalThere
        cases node with
        | file content mode => cases hdirectory
        | directory bits es => cases hreplacedFile
      have hcleared : t.Sets source.place none (t.erase source.place) := fun other =>
        holding?_erase (hfrom.place_ne_nil hdots) (NoDirectory.of_file hsource)
      have hdirectories : t.SameDirectories (t.erase source.place) :=
        hcleared.agreesBut.sameDirectories (.of_file hsource) (.of_none hcleared.self)
      have hroom : (t.erase source.place).HasRoom path.place := by
        rcases hto.hasRoom hdots' with hnil | ⟨mode, hholder⟩
        · exact .inl hnil
        · exact .inr ⟨mode, (hdirectories _ _).mpr hholder⟩
      have hno' : (t.erase source.place).NoDirectory path.place := fun mode hmode =>
        hno mode ((hdirectories _ _).mp hmode)
      have hput := sets_put_file content mode hroom hno'
      have hdirectories' := hput.agreesBut.sameDirectories hno' (.of_file hput.self)
      refine ⟨content, mode, hsource, hno, ?_, ?_⟩
      · intro other
        rw [hput other, hcleared other]
      · exact hto.isPresent (hdirectories.trans hdirectories').keeps hadmissible hslash' hput.self

theorem remove_ok (h : t.remove path = .ok t') :
    t.NoDirectory path.place ∧ t.Sets path.place none t' := by
  unfold remove at h
  obtain ⟨slot, hslot, h⟩ := Except.bind_eq_ok h
  obtain ⟨route, hslots⟩ := slot_ok hslot
  obtain ⟨hdots, h⟩ := Except.unthrown_eq_ok h
  obtain ⟨node?, hnode, h⟩ := Except.bind_eq_ok h
  have hthere := (hslots.node?_eq hnode).1
  cases node? with
  | none => cases h
  | some node =>
    obtain ⟨-, h⟩ := Except.unthrown_eq_ok h
    have hlast : (do
        if node.isDirectory then throw .isADirectory
        return t.erase slot.place : Except IoFault Tree) = .ok t' := by
      cases hslash : slot.slash with
      | false =>
        simp only [hslash] at h
        obtain ⟨-, -, h⟩ := Except.bind_eq_ok h
        exact h
      | true =>
        simp only [hslash] at h
        exact h
    obtain ⟨hdirectory, hdone⟩ := Except.unthrown_eq_ok hlast
    cases hdone
    have hno : t.NoDirectory path.place := by
      intro mode hmode
      rw [hmode] at hthere
      cases node with
      | file content mode => cases hthere
      | directory mode es => cases hdirectory
    rw [hslots.place_eq hdots]
    exact ⟨hno, fun other => holding?_erase (hslots.place_ne_nil hdots) hno⟩

/-! ### Making directories -/

theorem makeDirectory_ok (h : t.makeDirectory path = .ok t') :
    t.holding? path.place = none ∧ ∃ mode, t.Sets path.place (some (.directory mode)) t' := by
  unfold makeDirectory at h
  obtain ⟨slot, hslot, h⟩ := Except.bind_eq_ok h
  obtain ⟨route, hslots⟩ := slot_ok hslot
  obtain ⟨hdots, h⟩ := Except.unthrown_eq_ok h
  obtain ⟨node?, hnode, h⟩ := Except.bind_eq_ok h
  have hthere := (hslots.node?_eq hnode).1
  cases node? with
  | some node => cases h
  | none =>
    obtain ⟨-, -, h⟩ := Except.bind_eq_ok h
    cases h
    rw [hslots.place_eq hdots]
    refine ⟨hthere.symm, _, fun other => holding?_put (hslots.hasRoom hdots) fun rest hrest => ?_⟩
    rw [holding?_append_eq_none hrest (NoDirectory.of_none hthere.symm)]
    cases rest with
    | nil => exact absurd rfl hrest
    | cons name rest => rfl

/-- At some places directories are made where nothing was, and nothing else changes. -/
def Extends (t : Tree) (places : List Place) (t' : Tree) : Prop :=
  ∀ other, t'.holding? other = t.holding? other ∨
    (other ∈ places ∧ t.holding? other = none ∧ ∃ mode, t'.holding? other = some (.directory mode))

theorem Extends.refl (t : Tree) (places : List Place) : t.Extends places t := fun _ => .inl rfl

theorem Extends.trans {places : List Place} (h : t.Extends places t')
    (h' : t'.Extends places t'') : t.Extends places t'' := by
  intro other
  rcases h' other with hsame' | ⟨hmem, hnone, hmade⟩
  · rw [hsame']
    exact h other
  · rcases h other with hsame | ⟨-, -, mode, hmode⟩
    · exact .inr ⟨hmem, hsame ▸ hnone, hmade⟩
    · rw [hmode] at hnone
      cases hnone

theorem Extends.mono {places more : List Place} (h : t.Extends places t')
    (hsub : places ⊆ more) : t.Extends more t' := by
  intro other
  rcases h other with hsame | ⟨hmem, hmade⟩
  · exact .inl hsame
  · exact .inr ⟨hsub hmem, hmade⟩

/-- New directories take nothing away. -/
theorem Extends.holding?_eq_some {places : List Place} {place : Place} {holding : Holding}
    (h : t.Extends places t') (hthere : t.holding? place = some holding) :
    t'.holding? place = some holding := by
  rcases h place with hsame | ⟨-, hnone, -⟩
  · exact hsame.trans hthere
  · rw [hthere] at hnone
    cases hnone

theorem Extends.keeps {places : List Place} (h : t.Extends places t') : t.Keeps t' where
  isOpen := by
    rintro place ⟨mode, hmode, hsearch⟩
    exact ⟨mode, h.holding?_eq_some hmode, hsearch⟩
  directory := by
    intro place mode hmode
    exact ⟨mode, h.holding?_eq_some hmode⟩

/-- A path stays present where all that stands at its place stays. -/
theorem Keeps.isPresent_of_isSome (hkeeps : t.Keeps t')
    (hthere : ∀ h, t.holding? path.place = some h → ∃ h', t'.holding? path.place = some h')
    (hpresent : t.isPresent path = true) : t'.isPresent path = true := by
  obtain ⟨h, hh⟩ := exists_holding_of_isPresent hpresent
  obtain ⟨h', hh'⟩ := hthere h hh
  exact hkeeps.isPresent hpresent hh'

theorem ensureDirectory_extends (h : t.ensureDirectory path = .ok t') :
    t.Extends [path.place] t' := by
  unfold ensureDirectory at h
  cases hmake : t.makeDirectory path with
  | ok made =>
    rw [hmake] at h
    cases h
    obtain ⟨hnone, mode, hsets⟩ := makeDirectory_ok hmake
    intro other
    by_cases hother : other = path.place
    · rw [hother]
      exact .inr ⟨List.mem_singleton_self _, hnone, mode, hsets.self⟩
    · exact .inl (hsets.agreesBut other hother)
  | error fault =>
    rw [hmake] at h
    dsimp only at h
    split at h
    · cases h
      exact .refl t _
    · cases h

theorem createAlong_extends (paths : List Path) (t : Tree) :
    t.Extends (paths.map Path.place) (createAlong paths t).2 := by
  induction paths generalizing t with
  | nil => exact .refl t _
  | cons path above ih =>
    have hfirst : [path.place] ⊆ (path :: above).map Path.place := by simp
    have habove : above.map Path.place ⊆ (path :: above).map Path.place := by simp
    unfold createAlong
    cases hensure : t.ensureDirectory path with
    | ok made => exact (ensureDirectory_extends hensure).mono hfirst
    | error fault =>
      cases fault with
      | notFound =>
        have hmade := (ih t).mono habove
        cases hcreate : createAlong above t with
        | mk result t₁ =>
          rw [hcreate] at hmade
          dsimp only
          cases result with
          | error fault => exact hmade
          | ok u =>
            dsimp only
            cases hagain : t₁.ensureDirectory path with
            | ok made => exact hmade.trans ((ensureDirectory_extends hagain).mono hfirst)
            | error fault => exact hmade
      | _ => exact .refl t _

end Tree

end Overseer
