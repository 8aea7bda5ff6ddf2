import Overseer.Proofs.Installing.Runs

/-!
An installation that fails leaves whole files.

At every moment of an installation each place holds what it held before or a whole bundled file, but
for the temporary siblings (`Installer.Whole`), and what failed is as it was before its turn
(`install_atomic`). Only directories that lead to the install directory are made on the way
(`Installer.Stands`).
-/

namespace Overseer

open Program

namespace Installer

variable (i : Installer)

/-! ### What stands where -/

/-- The places of the install directory and of the directories that lead to it. -/
def way : List Place := i.installDir.place :: i.installDir.ancestors.map Path.place

/-- What may stand at a place in the course of an installation that started from a tree. -/
inductive Stands (t : Tree) (turns : List Entry.Turn) (place : Place) : Option Holding → Prop where
  | before : Stands t turns place (t.holding? place)
  /-- The whole bundled file; the binary only with its permission bits. -/
  | installed {turn : Entry.Turn} {content : ByteArray} {mode mode' : Nat} (mem : turn ∈ turns)
      (target : turn.entry.target.place = place)
      (bundled : turn.before.holding? turn.entry.source.place = some (.file content mode))
      (executable : turn.entry.executable = true → mode' = executableMode) :
      Stands t turns place (some (.file (turn.entry.copied content) mode'))
  | made {mode : Nat} (onWay : place ∈ i.way) (absent : t.holding? place = none) :
      Stands t turns place (some (.directory mode))
  /-- The install directory with all bits of the owner beside its own. -/
  | opened {h : Holding} (dir : place = i.installDir.place) (there : t.holding? place = some h)
      (closed : h.mode &&& ownerWrite = 0) :
      Stands t turns place (some (h.withMode (h.mode ||| ownerAll)))

/-- Everywhere but at the temporary siblings stands what may stand there. -/
def Whole (t : Tree) (turns : List Entry.Turn) (tree : Tree) : Prop :=
  ∀ place, place ∉ i.temporaries → i.Stands t turns place (tree.holding? place)

variable {i} {t t' : Tree} {turns : List Entry.Turn}

theorem Prepares.whole (h : i.Prepares t t') : i.Whole t turns t' := by
  obtain ⟨made, hmade, hopens⟩ := h
  have hfirst (place : Place) : i.Stands t turns place (made.holding? place) := by
    rcases hmade place with hsame | ⟨honWay, habsent, mode, hmode⟩
    · rw [hsame]
      exact .before
    · rw [hmode]
      exact .made (List.mem_cons_of_mem _ honWay) habsent
  intro place _
  rcases hopens with rfl | ⟨before, hbefore, hclosed, hset⟩
  · exact hfirst place
  · rw [hset place]
    by_cases hplace : place = i.installDir.place
    · rw [if_pos hplace]
      subst hplace
      rcases hmade i.installDir.place with hsame | ⟨honWay, habsent, mode', hmode'⟩
      · exact .opened rfl (hsame ▸ hbefore) hclosed
      · rw [hmode'] at hbefore
        cases hbefore
        exact .made (List.mem_cons_of_mem _ honWay) habsent
    · rw [if_neg hplace]
      exact hfirst place

/-- The turn of an entry keeps files whole, at each of its moments. -/
theorem Whole.turn {turn : Entry.Turn} (h : i.Whole t turns turn.before) (right : turn.Right)
    (hmem : turn ∈ turns) (hentry : turn.entry ∈ i.entries) :
    i.Whole t turns turn.after ∧ ∀ m ∈ turn.moments, i.Whole t turns m.after := by
  have htemporary : turn.entry.temporary.place ∈ i.temporaries :=
    List.mem_map_of_mem (f := fun e : Entry => e.temporary.place) hentry
  have hagrees {tree : Tree} (hagrees : turn.before.AgreesBut turn.entry.temporary.place tree) :
      i.Whole t turns tree := by
    intro place hplace
    have hne : place ≠ turn.entry.temporary.place := fun heq => hplace (heq ▸ htemporary)
    rw [hagrees place hne]
    exact h place hplace
  cases right with
  | kept stays present ok same still =>
    refine ⟨same ▸ h, fun m hm => ?_⟩
    rw [still m hm]
    exact h
  | missed absent failed missed =>
    exact ⟨hagrees missed.agrees, fun m hm => hagrees (missed.meanwhile m hm)⟩
  | placed absent ok placed =>
    have hafter : i.Whole t turns turn.after := by
      obtain ⟨content, mode, mode', hsource, hmode, hplace⟩ := placed.bundled
      intro place hnot
      rw [hplace place]
      by_cases htarget : place = turn.entry.target.place
      · rw [if_pos htarget]
        exact .installed hmem htarget.symm hsource hmode
      · have hne : place ≠ turn.entry.temporary.place := fun heq => hnot (heq ▸ htemporary)
        rw [if_neg htarget, if_neg hne]
        exact h place hnot
    refine ⟨hafter, fun m hm => ?_⟩
    rcases placed.meanwhile m hm with heq | hbut
    · rw [heq]
      exact hafter
    · exact hagrees hbut

/-! ### Installations -/

variable (i t t')

/-- How an installation goes: the directory is prepared, and then the entries have their turns. -/
structure Atomic (moments : List Moment) (result : Except InstallError Unit)
    (preparing : List Moment) (prepared : Tree) (turns : List Entry.Turn) : Prop where
  parts : moments = preparing ++ turns.flatMap Entry.Turn.moments
  prepares : i.Prepares t prepared
  processes : (∃ fault, result = .error (.createDir i.installDir fault) ∧ turns = [] ∧
      t' = prepared) ∨ Processes prepared i.entries turns result t'
  /-- Each turn keeps, places or misses its file. -/
  right : ∀ turn ∈ turns, turn.Right
  /-- At every moment files are whole. -/
  whole : i.Whole t turns t' ∧ ∀ m ∈ moments, i.Whole t turns m.after
  complete : result = .ok () →
    turns.map Entry.Turn.entry = i.entries ∧ ∀ turn ∈ turns, turn.result = .ok ()
  /-- After a fault of a copy all entries before it are through, and of the rest nothing but the
  temporary sibling was touched since its turn began. -/
  broken : ∀ source target fault, result = .error (.copy source target fault) →
    ∃ before last, turns = before ++ [last] ∧ (∀ turn ∈ before, turn.result = .ok ()) ∧
      last.entry.source = source ∧ last.entry.target = target ∧
      last.entry.Missed last.before last.moments t' ∧
      t'.holding? target.place = last.before.holding? target.place
  kept : ∀ turn ∈ turns, turn.entry.overwrite = false →
    turn.before.isPresent turn.entry.target = true → turn.after = turn.before

end Installer

/-- Whatever fails in an installation, and wherever: files are whole at every moment, and what
failed is as it was before its turn. -/
theorem install_atomic {i : Installer} {t t' : Tree} {moments : List Moment}
    {result : Except InstallError Unit} (run : OverFiles t i.install moments result t') :
    ∃ preparing prepared turns, i.Atomic t t' moments result preparing prepared turns := by
  obtain ⟨preparing, prepared, turns, rfl, hprepares, hpreparing, hgoes⟩ := i.install_leaves t run
  have hfirst : i.Whole t turns prepared := hprepares.whole
  have hpreparing : ∀ m ∈ preparing, i.Whole t turns m.after := fun m hm => (hpreparing m hm).whole
  refine ⟨preparing, prepared, turns, ?_⟩
  rcases hgoes with ⟨fault, rfl, rfl, rfl⟩ | hprocesses
  · exact {
      parts := rfl
      prepares := hprepares
      processes := .inl ⟨fault, rfl, rfl, rfl⟩
      right := nofun
      whole := ⟨hfirst, by simpa using hpreparing⟩
      complete := nofun
      broken := nofun
      kept := nofun }
  · have hmem : ∀ turn ∈ turns, turn.entry ∈ i.entries := fun turn hturn =>
      hprocesses.entries_prefix.subset (List.mem_map_of_mem hturn)
    have hwhole := hprocesses.invariant hfirst fun turn hturn right h =>
      h.turn right hturn (hmem turn hturn)
    exact {
      parts := rfl
      prepares := hprepares
      processes := .inr hprocesses
      right := hprocesses.right
      whole := ⟨hwhole.1, List.forall_mem_append.mpr ⟨hpreparing, hwhole.2⟩⟩
      complete := hprocesses.complete
      broken := by
        intro source target fault herror
        obtain ⟨before, last, rfl, hbefore, hlast, rfl⟩ := hprocesses.broken herror
        have hright := hprocesses.right last (by simp)
        obtain ⟨⟨fault', hcopy⟩, hmissed⟩ := hright.missed_of_error hlast
        cases hcopy
        exact ⟨before, last, rfl, hbefore, rfl, rfl, hmissed, hmissed.target⟩
      kept := fun turn hturn => (hprocesses.right turn hturn).same_of_present }

/-- The target that a failed installation names. -/
def failedTarget : Except InstallError Unit → Option String
  | .error (.copy _ target _) => some target.text
  | _ => none

theorem install_atomic_news :
    ∃ moments, OverFiles newsTree newsInstaller.install moments
        (newsTree.run newsInstaller.install).1 (newsTree.run newsInstaller.install).2 ∧
      failedTarget (newsTree.run newsInstaller.install).1 = some "/client/news" ∧
      ∃ preparing prepared turns, newsInstaller.Atomic newsTree
        (newsTree.run newsInstaller.install).2 moments (newsTree.run newsInstaller.install).1
        preparing prepared turns := by
  obtain ⟨moments, hrun⟩ := overFiles_run newsInstaller.install newsTree
  exact ⟨moments, hrun, by decide +kernel, install_atomic hrun⟩

/-- Temporary siblings can be in the way of other files: one that is itself a later target is gone
after a fault, and a bundled file that is one is emptied. On the way to an install directory that is
named through another one, that is made. An install directory that its owner cannot write to is
opened. -/
theorem install_not_atomic :
    (let i : Installer :=
      { newsInstaller with
        auxFiles :=
          [{ name := "news", overwrite := true }, { name := "b", target := ".news.partial" }] }
     let t : Tree := newsTree.put ["client", ".news.partial"] (.file "mine".toUTF8 Node.fileMode)
     let run := t.run i.install
     failedTarget run.1 = some "/client/news" ∧
       (t.readText ⟨"/client/.news.partial"⟩).toOption = some "mine" ∧
       run.2.isPresent ⟨"/client/.news.partial"⟩ = false) ∧
    (let i : Installer :=
      { newsInstaller with
        installDir := ⟨"/assets"⟩
        auxFiles := [{ name := ".foo.partial", target := "foo" }, { name := "absent" }] }
     let t : Tree := newsTree.put ["assets", ".foo.partial"] (.file "foo".toUTF8 Node.fileMode)
     let run := t.run i.install
     failedTarget run.1 = some "/assets/absent" ∧ t.isPresent ⟨"/assets/foo"⟩ = false ∧
       (run.2.readText ⟨"/assets/foo"⟩).toOption = some "") ∧
    (let i : Installer :=
      { newsInstaller with installDir := ⟨"/client/new/.."⟩, binaryName := "absent" }
     let run := newsTree.run i.install
     failedTarget run.1 = some "/client/new/../absent" ∧
       newsTree.isPresent ⟨"/client/new"⟩ = false ∧ run.2.isPresent ⟨"/client/new"⟩ = true) ∧
    (let dir : Path := newsInstaller.installDir
     let t : Tree := (newsTree.run (Files.setMode dir 0o555)).2
     let run := t.run newsInstaller.install
     (t.run (Files.mode dir)).1.toOption = some 0o555 ∧
       failedTarget run.1 = some "/client/news" ∧
       (run.2.run (Files.mode dir)).1.toOption = some 0o755) := by
  decide +kernel

end Overseer
