import Overseer.Proofs.Files.Faulty

/-!
Installing one file.

The binary and the auxiliary files are entries that are installed in the same way. Whatever fails in
the turn of an entry, it ends in one of three ways (`Entry.Turn.Right`): the target was there and is
kept, it comes to hold the bundled file in one step, or all but the temporary sibling stays as it
was.
-/

namespace Overseer

open Program

/-- A file to install. -/
structure Entry where
  source : Path
  target : Path
  executable : Bool
  /-- Replace a target that is there. -/
  overwrite : Bool

namespace Entry

variable (e : Entry)

/-- The temporary sibling of the target. -/
def temporary : Path := Installer.partialPath e.target

/-- Installs the file unless it is there and stays. -/
def install : Program Files (Except InstallError Unit) := do
  let kept ← if e.overwrite then pure false else Files.isPresent e.target
  if kept then return .ok () else Installer.copyAtomic e.source e.target e.executable

/-- What comes to the target. A bundled file that is itself where the temporary sibling goes is
emptied. -/
def copied (bundled : ByteArray) : ByteArray :=
  if e.temporary.place = e.source.place then .empty else bundled

theorem temporary_place_ne : e.temporary.place ≠ e.target.place :=
  Installer.partialPath_place_ne e.target

end Entry

namespace Installer

variable (i : Installer)

/-- The binary. -/
def binaryEntry : Entry := ⟨i.source, i.installed, true, true⟩

/-- An auxiliary file. -/
def auxEntry (aux : AuxFile) : Entry :=
  ⟨i.assetDir.join aux.name, i.installDir.join aux.targetName, false, aux.overwrite⟩

/-- All files in the order in which they are installed. -/
def entries : List Entry := i.binaryEntry :: i.auxFiles.map i.auxEntry

/-- The places of temporary siblings. -/
def temporaries : List Place := i.entries.map fun e => e.temporary.place

end Installer

/-- Installs entries in order, up to the first fault. -/
def installEntries : List Entry → Program Files (Except InstallError Unit)
  | [] => return .ok ()
  | e :: rest => do
    match ← e.install with
    | .error error => return .error error
    | .ok () => installEntries rest

namespace Installer

variable (i : Installer)

theorem installAux_eq (auxFiles : List AuxFile) :
    i.installAux auxFiles = installEntries (auxFiles.map i.auxEntry) := by
  induction auxFiles with
  | nil => rfl
  | cons aux rest ih =>
    unfold installAux
    rw [List.map_cons, installEntries, Entry.install, ih]
    change (if aux.overwrite = true then _ else _) = (if aux.overwrite = true then _ else _) >>= _
    by_cases hoverwrite : aux.overwrite = true
    · rw [if_pos hoverwrite, if_pos hoverwrite]
      rfl
    · rw [if_neg hoverwrite, if_neg hoverwrite, bind_assoc]
      congr 1
      funext kept
      cases kept <;> rfl

/-- Installing is preparing the directory and installing all entries. -/
theorem install_eq :
    i.install = i.prepareDir >>= fun
      | .error error => return .error error
      | .ok () => installEntries i.entries := by
  unfold install
  congr 1
  funext prepared
  cases prepared with
  | error error => rfl
  | ok u => simp only [installAux_eq]; rfl

end Installer

/-! ### The turn of an entry -/

namespace Entry

variable (e : Entry) (t : Tree) (moments : List Moment) (t' : Tree)

/-- The bundled file came to its target, which nobody ever saw in between. -/
structure Placed : Prop where
  bundled : ∃ content mode mode', t.holding? e.source.place = some (.file content mode) ∧
    (e.executable = true → mode' = Installer.executableMode) ∧
    ∀ other, t'.holding? other =
      if other = e.target.place then some (.file (e.copied content) mode')
      else if other = e.temporary.place then none else t.holding? other
  present : t'.isPresent e.target = true
  directories : t.SameDirectories t'
  meanwhile : ∀ m ∈ moments, m.after = t' ∨ t.AgreesBut e.temporary.place m.after

/-- Nothing but the temporary sibling was touched, and that is gone if its removal went through. -/
structure Missed : Prop where
  agrees : t.AgreesBut e.temporary.place t'
  cleared : (∃ m ∈ moments, m.exchange = ⟨.remove e.temporary, .ok ()⟩) →
    t'.holding? e.temporary.place = none
  directories : t.SameDirectories t'
  meanwhile : ∀ m ∈ moments, t.AgreesBut e.temporary.place m.after

variable {e t moments t'}

/-- A target that was missed is as it was. -/
theorem Missed.target (h : e.Missed t moments t') :
    t'.holding? e.target.place = t.holding? e.target.place :=
  h.agrees _ e.temporary_place_ne.symm

/-- How far filling and moving the temporary sibling came. -/
inductive Attempted (e : Entry) (t : Tree) (moments : List Moment) :
    Except IoFault Unit → Tree → Prop where
  | placed {t' : Tree} (placed : e.Placed t moments t') : Attempted e t moments (.ok ()) t'
  | failed {t' : Tree} {fault : IoFault} (agrees : t.AgreesBut e.temporary.place t')
      (directories : t.SameDirectories t')
      (meanwhile : ∀ m ∈ moments, t.AgreesBut e.temporary.place m.after)
      (unremoved : ∀ m ∈ moments, m.exchange.op ≠ .remove e.temporary) :
      Attempted e t moments (.error fault) t'

theorem Attempted.cons {m : Moment} {result : Except IoFault Unit}
    (h : e.Attempted t moments result t') (hm : t.AgreesBut e.temporary.place m.after)
    (hop : m.exchange.op ≠ .remove e.temporary) : e.Attempted t (m :: moments) result t' := by
  cases h with
  | placed placed =>
    refine .placed { placed with meanwhile := ?_ }
    exact List.forall_mem_cons.mpr ⟨.inr hm, placed.meanwhile⟩
  | failed agrees directories meanwhile unremoved =>
    exact .failed agrees directories (List.forall_mem_cons.mpr ⟨hm, meanwhile⟩)
      (List.forall_mem_cons.mpr ⟨hop, unremoved⟩)

/-- Once the temporary sibling is filled, moving it is one step. -/
theorem rename_leaves {t₁ : Tree} {content : ByteArray} {mode mode' : Nat}
    (hsource : t.holding? e.source.place = some (.file content mode))
    (hno : t.NoDirectory e.temporary.place)
    (hfilled : t.Sets e.temporary.place (some (.file (e.copied content) mode')) t₁)
    (hmode : e.executable = true → mode' = Installer.executableMode) :
    Leaves t₁ (Files.rename e.temporary e.target) fun moments result t' =>
      e.Attempted t moments result t' := by
  refine Leaves.call fun answer t' carried => ?_
  have hfile : t₁.NoDirectory e.temporary.place := .of_file hfilled.self
  have hsame : t.SameDirectories t₁ := hfilled.agreesBut.sameDirectories hno hfile
  rcases carried.of_rename e.temporary_place_ne with
    ⟨moved, bits, rfl, hmoved, htarget, hafter, hpresent⟩ | ⟨fault, rfl, rfl⟩
  · rw [hfilled.self] at hmoved
    cases hmoved
    have hplace (other : Place) : t'.holding? other =
        if other = e.target.place then some (.file (e.copied content) mode')
        else if other = e.temporary.place then none else t.holding? other := by
      rw [hafter other, hfilled other]
      by_cases hother : other = e.temporary.place
      · simp [hother]
      · simp [hother]
    have hsame' : t₁.SameDirectories t' := by
      intro other bits
      rw [hafter other]
      by_cases hother : other = e.target.place
      · rw [if_pos hother, hother]
        exact iff_of_false nofun (htarget bits)
      · rw [if_neg hother]
        by_cases htemporary : other = e.temporary.place
        · rw [if_pos htemporary, htemporary]
          exact iff_of_false nofun (hfile bits)
        · rw [if_neg htemporary]
    exact .placed {
      bundled := ⟨content, mode, mode', hsource, hmode, hplace⟩
      present := hpresent
      directories := hsame.trans hsame'
      meanwhile := List.forall_mem_singleton.mpr (.inl rfl) }
  · exact .failed hfilled.agreesBut hsame (List.forall_mem_singleton.mpr hfilled.agreesBut)
      (List.forall_mem_singleton.mpr nofun)

theorem fillAndRename_leaves (e : Entry) (t : Tree) :
    Leaves t (Installer.fillAndRename e.source e.target e.executable) fun moments result t' =>
      e.Attempted t moments result t' := by
  refine Leaves.question fun answer t₁ carried => ?_
  rcases carried.of_copy with
    ⟨content, mode, mode', rfl, hno, hsource, hfilled⟩ | ⟨fault, rfl, hagrees, hsame⟩
  · have hagrees : t.AgreesBut e.temporary.place t₁ := hfilled.agreesBut
    have hsame : t.SameDirectories t₁ := hagrees.sameDirectories hno (.of_file hfilled.self)
    cases hexecutable : e.executable with
    | false =>
      refine (rename_leaves hsource hno hfilled (by rw [hexecutable]; exact nofun)).mono ?_
      intro moments result t' attempted
      exact attempted.cons hagrees nofun
    | true =>
      refine Leaves.question fun answer t₂ carried => ?_
      rcases carried.of_setMode with ⟨before, rfl, hbefore, hset⟩ | ⟨fault, rfl, rfl⟩
      · change t₁.holding? e.temporary.place = some before at hbefore
        rw [show t₁.holding? e.temporary.place = _ from hfilled.self] at hbefore
        cases hbefore
        have hready : t.Sets e.temporary.place
            (some (.file (e.copied content) Installer.executableMode)) t₂ := by
          intro other
          rw [hset other]
          by_cases hother : other = e.temporary.place
          · have hplace : other = (Installer.partialPath e.target).place := hother
            rw [if_pos hother, if_pos hplace]
            rfl
          · have hplace : other ≠ (Installer.partialPath e.target).place := hother
            rw [if_neg hother, if_neg hplace]
            exact hagrees other hother
        refine (rename_leaves hsource hno hready fun _ => rfl).mono ?_
        intro moments result t' attempted
        refine Attempted.cons (Attempted.cons attempted hready.agreesBut ?_) hagrees ?_
        · exact nofun
        · exact nofun
      · have hstopped : e.Attempted t [] (.error fault) t₂ := .failed hagrees hsame nofun nofun
        refine Leaves.done (Attempted.cons (Attempted.cons hstopped hagrees ?_) hagrees ?_)
        · exact nofun
        · exact nofun
  · have hstopped : e.Attempted t [] (.error fault) t₁ := .failed hagrees hsame nofun nofun
    refine Leaves.done (Attempted.cons hstopped hagrees ?_)
    exact nofun

/-- A file comes to its target, or the fault is told and the temporary sibling removed. -/
theorem copyAtomic_leaves (e : Entry) (t : Tree) :
    Leaves t (Installer.copyAtomic e.source e.target e.executable) fun moments result t' =>
      (result = .ok () ∧ e.Placed t moments t') ∨
        (∃ fault, result = .error (.copy e.source e.target fault) ∧ e.Missed t moments t') := by
  refine Leaves.bind (fillAndRename_leaves e t) ?_
  rintro first result t₁ attempted
  cases attempted with
  | placed placed =>
    refine Leaves.done (.inl ⟨rfl, ?_⟩)
    rw [List.append_nil]
    exact placed
  | @failed _ fault agrees directories meanwhile unremoved =>
    refine Leaves.question fun answer t' carried => Leaves.done (.inr ⟨fault, rfl, ?_⟩)
    have hlast : t.AgreesBut e.temporary.place t' ∧ t.SameDirectories t' ∧
        (answer = .ok () → t'.holding? e.temporary.place = none) := by
      rcases carried.of_remove with ⟨rfl, hno, hcleared⟩ | ⟨fault, rfl, rfl⟩
      · have hsame := hcleared.agreesBut.sameDirectories hno (.of_none hcleared.self)
        exact ⟨agrees.trans hcleared.agreesBut, directories.trans hsame, fun _ => hcleared.self⟩
      · exact ⟨agrees, directories, nofun⟩
    obtain ⟨hagrees, hsame, hcleared⟩ := hlast
    refine ⟨hagrees, ?_, hsame, ?_⟩
    · rintro ⟨m, hm, hexchange⟩
      rcases List.mem_append.mp hm with hfirst | hlast
      · exact absurd (congrArg Exchange.op hexchange) (unremoved m hfirst)
      · rw [List.mem_singleton.mp hlast] at hexchange
        have hanswer : answer = .ok () := by
          cases hexchange
          rfl
        exact hcleared hanswer
    · exact List.forall_mem_append.mpr ⟨meanwhile, List.forall_mem_singleton.mpr hagrees⟩

end Entry

/-- The turn of an entry, from one tree to another. -/
structure Entry.Turn where
  entry : Entry
  before : Tree
  moments : List Moment
  result : Except InstallError Unit
  after : Tree

/-- The entry was installed in this turn. -/
def Entry.Turn.Runs (turn : Entry.Turn) : Prop :=
  OverFiles turn.before turn.entry.install turn.moments turn.result turn.after

/-- How the turn of an entry goes. -/
inductive Entry.Turn.Right (turn : Entry.Turn) : Prop where
  | kept (stays : turn.entry.overwrite = false)
      (present : turn.before.isPresent turn.entry.target = true) (ok : turn.result = .ok ())
      (same : turn.after = turn.before) (still : ∀ m ∈ turn.moments, m.after = turn.before)
  | placed (absent : turn.entry.overwrite = false →
        turn.before.isPresent turn.entry.target = false)
      (ok : turn.result = .ok ()) (placed : turn.entry.Placed turn.before turn.moments turn.after)
  | missed {fault : IoFault} (absent : turn.entry.overwrite = false →
        turn.before.isPresent turn.entry.target = false)
      (failed : turn.result = .error (.copy turn.entry.source turn.entry.target fault))
      (missed : turn.entry.Missed turn.before turn.moments turn.after)

theorem Entry.install_leaves (e : Entry) (t : Tree) :
    Leaves t e.install fun moments result t' => Entry.Turn.Right ⟨e, t, moments, result, t'⟩ := by
  unfold Entry.install
  cases hoverwrite : e.overwrite with
  | true =>
    have habsent : e.overwrite = false → t.isPresent e.target = false := by
      rw [hoverwrite]
      exact nofun
    refine (e.copyAtomic_leaves t).mono ?_
    rintro moments result t' (⟨ok, placed⟩ | ⟨fault, failed, missed⟩)
    · exact .placed habsent ok placed
    · exact .missed habsent failed missed
  | false =>
    refine Leaves.question fun present t₁ carried => ?_
    obtain ⟨rfl, rfl⟩ := carried.isPresent
    cases hpresent : t₁.isPresent e.target with
    | true =>
      exact Leaves.done (.kept hoverwrite hpresent rfl rfl (List.forall_mem_singleton.mpr rfl))
    | false =>
      refine (e.copyAtomic_leaves t₁).mono ?_
      rintro moments result t' (⟨ok, placed⟩ | ⟨fault, failed, missed⟩)
      · refine .placed (fun _ => hpresent) ok { placed with meanwhile := ?_ }
        exact List.forall_mem_cons.mpr ⟨.inr (.refl t₁ _), placed.meanwhile⟩
      · refine .missed (fun _ => hpresent) failed { missed with meanwhile := ?_, cleared := ?_ }
        · rintro ⟨m, hm, hexchange⟩
          rcases List.mem_cons.mp hm with rfl | hrest
          · cases hexchange
          · exact missed.cleared ⟨m, hrest, hexchange⟩
        · exact List.forall_mem_cons.mpr ⟨.refl t₁ _, missed.meanwhile⟩

theorem Entry.Turn.Runs.right {turn : Entry.Turn} (run : turn.Runs) : turn.Right :=
  turn.entry.install_leaves turn.before run

/-- A turn that fails tells its entry, and misses it. -/
theorem Entry.Turn.Right.missed_of_error {turn : Entry.Turn} {error : InstallError} (h : turn.Right)
    (herror : turn.result = .error error) :
    (∃ fault, error = .copy turn.entry.source turn.entry.target fault) ∧
      turn.entry.Missed turn.before turn.moments turn.after := by
  cases h with
  | kept stays present ok => rw [ok] at herror; cases herror
  | placed absent ok => rw [ok] at herror; cases herror
  | missed absent failed missed =>
    rw [failed] at herror
    cases herror
    exact ⟨⟨_, rfl⟩, missed⟩

/-- A target that is there and stays is not touched. -/
theorem Entry.Turn.Right.same_of_present {turn : Entry.Turn} (h : turn.Right)
    (hstays : turn.entry.overwrite = false)
    (hpresent : turn.before.isPresent turn.entry.target = true) : turn.after = turn.before := by
  cases h with
  | kept stays present ok same => exact same
  | placed absent => exact absurd ((absent hstays).symm.trans hpresent) Bool.false_ne_true
  | missed absent => exact absurd ((absent hstays).symm.trans hpresent) Bool.false_ne_true

end Overseer
