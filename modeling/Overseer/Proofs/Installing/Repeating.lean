import Overseer.Proofs.Installing.Runs
import Overseer.Proofs.Preparing.Phases
import Overseer.Proofs.Throughout

/-!
Installing again and again.

What an installation put in place stays there through all later ones, whatever fails
(`Installer.install_present`). So an answer that the worker is installed means that all its files
are there, unless the call only found the binary current; and this shortcut matters only before the
first installation that went through (`installed_or_skipped`).
-/

namespace Overseer

open Program

/-! ### What stays in place -/

/-- A turn takes nothing away but its temporary sibling. -/
theorem Entry.Turn.Right.isPresent {turn : Entry.Turn} {path : Path} (right : turn.Right)
    (hne : path.place ≠ turn.entry.temporary.place)
    (hpresent : turn.before.isPresent path = true) : turn.after.isPresent path = true := by
  cases right with
  | kept stays present ok same =>
    rw [same]
    exact hpresent
  | missed absent failed missed =>
    refine missed.directories.keeps.isPresent_of_isSome (fun h hh => ⟨h, ?_⟩) hpresent
    rw [missed.agrees path.place hne]
    exact hh
  | placed absent ok placed =>
    obtain ⟨content, mode, mode', -, -, hplace⟩ := placed.bundled
    refine placed.directories.keeps.isPresent_of_isSome (fun h hh => ?_) hpresent
    rw [hplace path.place]
    by_cases htarget : path.place = turn.entry.target.place
    · exact ⟨_, if_pos htarget⟩
    · exact ⟨h, by rw [if_neg htarget, if_neg hne]; exact hh⟩

/-- A turn that went through leaves its target in place. -/
theorem Entry.Turn.Right.target_isPresent {turn : Entry.Turn} (right : turn.Right)
    (hok : turn.result = .ok ()) : turn.after.isPresent turn.entry.target = true := by
  cases right with
  | kept stays present ok same =>
    rw [same]
    exact present
  | placed absent ok placed => exact placed.present
  | missed absent failed => rw [failed] at hok; cases hok

namespace Processes

variable {t t' : Tree} {entries : List Entry} {turns : List Entry.Turn}
  {result : Except InstallError Unit}

theorem isPresent {path : Path} (h : Processes t entries turns result t')
    (hne : ∀ e ∈ entries, path.place ≠ e.temporary.place)
    (hpresent : t.isPresent path = true) : t'.isPresent path = true := by
  induction h with
  | done t => exact hpresent
  | next run ok more ih =>
    obtain ⟨hfirst, hrest⟩ := List.forall_mem_cons.mp hne
    exact ih hrest (run.right.isPresent hfirst hpresent)
  | stop run failed => exact run.right.isPresent (hne _ List.mem_cons_self) hpresent

/-- Without a fault all targets are in place in the end. -/
theorem target_isPresent (h : Processes t entries turns result t') (hok : result = .ok ())
    {e : Entry} (he : e ∈ entries) (hne : ∀ e' ∈ entries, e.target.place ≠ e'.temporary.place) :
    t'.isPresent e.target = true := by
  induction h with
  | done t => cases he
  | next run ok more ih =>
    obtain ⟨hfirst, hrest⟩ := List.forall_mem_cons.mp hne
    rcases List.mem_cons.mp he with rfl | he
    · exact more.isPresent hrest (run.right.target_isPresent ok)
    · exact ih hok he hrest
  | stop run failed => cases hok

end Processes

namespace Installer

variable (i : Installer)

/-- All bits of the owner let names be looked up. -/
theorem search_ownerAll (mode : Nat) : (mode ||| ownerAll) &&& Right.search.bit ≠ 0 := by
  rw [Nat.and_or_distrib_right]
  intro h
  exact absurd (Nat.or_eq_zero_iff.mp h).2 (by decide)

variable {i}

theorem Opens.keeps {t t' : Tree} (h : i.Opens t t') : t.Keeps t' ∧
    ∀ place holding, t.holding? place = some holding → ∃ h', t'.holding? place = some h' := by
  rcases h with rfl | ⟨before, hbefore, -, hset⟩
  · exact ⟨(Tree.SameDirectories.refl t').keeps, fun _ holding hholding => ⟨holding, hholding⟩⟩
  · have hplace {place : Place} {holding : Holding} (hholding : t.holding? place = some holding) :
        t'.holding? place = some holding ∨
          t'.holding? place = some (holding.withMode (holding.mode ||| ownerAll)) := by
      rw [hset place]
      by_cases hdir : place = i.installDir.place
      · rw [hdir, hbefore, Option.some.injEq] at hholding
        rw [if_pos hdir, hholding]
        exact .inr rfl
      · rw [if_neg hdir]
        exact .inl hholding
    refine ⟨⟨?_, ?_⟩, fun place holding hholding => ?_⟩
    · rintro place ⟨bits, hbits, hsearch⟩
      rcases hplace hbits with hsame | hopened
      · exact ⟨bits, hsame, hsearch⟩
      · exact ⟨_, hopened, search_ownerAll _⟩
    · intro place bits hbits
      rcases hplace hbits with hsame | hopened
      · exact ⟨bits, hsame⟩
      · exact ⟨_, hopened⟩
    · rcases hplace hholding with hsame | hopened
      · exact ⟨_, hsame⟩
      · exact ⟨_, hopened⟩

/-- Preparing the directory takes nothing away. -/
theorem Prepares.isPresent {t t' : Tree} {path : Path} (h : i.Prepares t t')
    (hpresent : t.isPresent path = true) : t'.isPresent path = true := by
  obtain ⟨made, hmade, hopens⟩ := h
  obtain ⟨hkeeps, hthere⟩ := hopens.keeps
  refine (hmade.keeps.trans hkeeps).isPresent_of_isSome (fun holding hholding => ?_) hpresent
  exact hthere path.place holding (hmade.holding?_eq_some hholding)

variable (i)

/-- All files are in place, but for those that share a place with a temporary sibling. -/
def Complete (t : Tree) : Prop :=
  ∀ e ∈ i.entries, e.target.place ∉ i.temporaries → t.isPresent e.target = true

/-- An installation takes no file away, and one that goes through puts all in place. -/
theorem install_present (t : Tree) :
    Leaves t i.install fun _ result t' =>
      (i.Complete t → i.Complete t') ∧ (result = .ok () → i.Complete t') := by
  refine (i.install_leaves t).mono ?_
  rintro moments result t' ⟨preparing, prepared, turns, -, hprepares, -, hgoes⟩
  have hne {e : Entry} (hplace : e.target.place ∉ i.temporaries) :
      ∀ e' ∈ i.entries, e.target.place ≠ e'.temporary.place := fun e' he' heq =>
    hplace (heq ▸ List.mem_map_of_mem he')
  rcases hgoes with ⟨fault, rfl, -, rfl⟩ | hprocesses
  · refine ⟨fun hcomplete e he hplace => ?_, nofun⟩
    exact hprepares.isPresent (hcomplete e he hplace)
  · refine ⟨fun hcomplete e he hplace => ?_, fun hok e he hplace => ?_⟩
    · exact hprocesses.isPresent (hne hplace) (hprepares.isPresent (hcomplete e he hplace))
    · exact hprocesses.target_isPresent hok he (hne hplace)

/-! ### Calls -/

/-- Both binaries can be read, and they have the same hash. -/
def SameBinary (t : Tree) : Prop :=
  ∃ bundled installed, t.readBytes i.source = .ok bundled ∧
    t.readBytes i.installed = .ok installed ∧
    Bytes.Sha256.digest installed = Bytes.Sha256.digest bundled

theorem isCurrent_leaves (t : Tree) :
    Leaves t i.isCurrent fun _ current t' => t' = t ∧ (current = true → i.SameBinary t) := by
  refine Leaves.question fun bundled t₁ carried => ?_
  obtain ⟨rfl, hbundled⟩ := carried.of_readBytes
  cases bundled with
  | error fault => exact Leaves.done ⟨rfl, nofun⟩
  | ok bundled =>
    refine Leaves.question fun installed t₂ carried => ?_
    obtain ⟨rfl, hinstalled⟩ := carried.of_readBytes
    cases installed with
    | error fault => exact Leaves.done ⟨rfl, nofun⟩
    | ok installed =>
      refine Leaves.done ⟨rfl, fun hcurrent => ?_⟩
      exact ⟨bundled, installed, hbundled _ rfl, hinstalled _ rfl, byteArray_beq_iff.mp hcurrent⟩

/-- Installs all files, and tells whether that went through. -/
def replace : Program Files Bool := do
  match ← i.install with
  | .ok () => return true
  | .error _ => return false

/-- Installs all files unless the binary is current. -/
def replaceOutdated : Program Files Bool := do
  if ← i.isCurrent then return true else i.replace

theorem ensureInstalled_eq (force : Bool) :
    i.ensureInstalled force = if force then i.replace else i.replaceOutdated := by
  cases force <;> rfl

theorem replace_leaves (t : Tree) :
    Leaves t i.replace fun _ installed t' =>
      (i.Complete t → i.Complete t') ∧ (installed = true → i.Complete t') := by
  refine Leaves.bind (i.install_present t) ?_
  rintro first result t₁ ⟨hkeeps, hok⟩
  cases result with
  | error error => exact Leaves.done ⟨hkeeps, nofun⟩
  | ok u => exact Leaves.done ⟨hkeeps, fun _ => hok rfl⟩

theorem replaceOutdated_leaves (t : Tree) :
    Leaves t i.replaceOutdated fun _ installed t' =>
      (i.SameBinary t ∧ t' = t) ∨
        ((i.Complete t → i.Complete t') ∧ (installed = true → i.Complete t')) := by
  refine Leaves.bind (i.isCurrent_leaves t) ?_
  rintro first current t₁ ⟨rfl, hcurrent⟩
  cases current with
  | true => exact Leaves.done (.inl ⟨hcurrent rfl, rfl⟩)
  | false => exact (i.replace_leaves t₁).mono fun _ _ _ h => .inr h

/-- One call that makes sure that the worker is installed. -/
structure Call where
  force : Bool
  before : Tree
  moments : List Moment
  installed : Bool
  after : Tree

/-- The call was carried out. -/
def Call.Runs (c : Call) : Prop :=
  OverFiles c.before (i.ensureInstalled c.force) c.moments c.installed c.after

/-- The call found the binary current, and did nothing else. -/
structure Call.Skips (c : Call) : Prop where
  unforced : c.force = false
  current : i.SameBinary c.before
  same : c.after = c.before

variable {i}

/-- A call skips, or it installs and tells how that went. -/
theorem Call.Runs.cases {c : Call} (run : c.Runs i) :
    c.Skips i ∨ ((i.Complete c.before → i.Complete c.after) ∧
      (c.installed = true → i.Complete c.after)) := by
  obtain ⟨force, t, moments, installed, t'⟩ := c
  change OverFiles t (i.ensureInstalled force) moments installed t' at run
  rw [ensureInstalled_eq] at run
  cases force with
  | true => exact .inr (i.replace_leaves t run)
  | false =>
    rcases i.replaceOutdated_leaves t run with ⟨hsame, rfl⟩ | hinstalled
    · exact .inl ⟨rfl, hsame, rfl⟩
    · exact .inr hinstalled

variable (i)

/-- Calls one after the other. -/
inductive Calls (t : Tree) : List Call → Tree → Prop where
  | start : Calls t [] t
  | call {calls : List Call} {c : Call} (past : Calls t calls c.before) (run : c.Runs i) :
      Calls t (calls ++ [c]) c.after

variable {i} in
/-- On a tree in memory there is always one more call. -/
theorem Calls.exists_call {t t' : Tree} {calls : List Call} (past : i.Calls t calls t')
    (force : Bool) :
    ∃ c, i.Calls t (calls ++ [c]) c.after ∧ c.force = force ∧
      c.installed = (t'.run (i.ensureInstalled force)).1 ∧
      c.after = (t'.run (i.ensureInstalled force)).2 := by
  obtain ⟨moments, hrun⟩ := overFiles_run (i.ensureInstalled force) t'
  exact ⟨⟨force, t', moments, _, _⟩, .call past hrun, rfl, rfl, rfl⟩

/-- An answer that the worker is installed is right about all files; or the call skipped, as all
calls before it did that gave this answer. -/
def Call.Answers (before : List Call) (c : Call) : Prop :=
  c.installed = true →
    i.Complete c.after ∨ (c.Skips i ∧ ∀ c' ∈ before, c'.installed = true → c'.Skips i)

end Installer

/-- Over any calls, whatever fails in them: the worker is said to be installed with all its files,
unless the call found the binary current before any installation went through. -/
theorem installed_or_skipped {i : Installer} {t t' : Tree} {calls : List Installer.Call}
    (run : i.Calls t calls t') : Throughout (Installer.Call.Answers i) calls := by
  suffices h : Throughout (Installer.Call.Answers i) calls ∧
      (i.Complete t' ∨ ∀ c ∈ calls, c.installed = true → c.Skips i) from h.1
  induction run with
  | start => exact ⟨throughout_nil, .inr nofun⟩
  | @call calls c past run ih =>
    obtain ⟨hrule, hstate⟩ := ih
    rw [throughout_concat]
    rcases run.cases with hskips | ⟨hkeeps, hinstalled⟩
    · rcases hstate with hcomplete | hall
      · rw [← hskips.same] at hcomplete
        exact ⟨⟨hrule, fun _ => .inl hcomplete⟩, .inl hcomplete⟩
      · refine ⟨⟨hrule, fun _ => .inr ⟨hskips, hall⟩⟩, .inr ?_⟩
        exact List.forall_mem_append.mpr ⟨hall, List.forall_mem_singleton.mpr fun _ => hskips⟩
    · refine ⟨⟨hrule, fun h => .inl (hinstalled h)⟩, ?_⟩
      rcases hstate with hcomplete | hall
      · exact .inl (hkeeps hcomplete)
      · cases hanswer : c.installed with
        | true => exact .inl (hinstalled hanswer)
        | false =>
          refine .inr (List.forall_mem_append.mpr ⟨hall, List.forall_mem_singleton.mpr ?_⟩)
          rw [hanswer]
          exact nofun

/-- The file `news` comes under another name. -/
def paperInstaller : Installer :=
  { newsInstaller with auxFiles := [{ name := "news", target := "paper" }] }

/-- A forced call installs all files, and another one skips. -/
theorem installed_or_skipped_paper :
    ∃ first second : Installer.Call,
      paperInstaller.Calls newsTree [first, second] second.after ∧
        first.force = true ∧ first.installed = true ∧ second.force = false ∧
        second.installed = true ∧ second.after.isPresent ⟨"/client/paper"⟩ = true ∧
        Throughout (Installer.Call.Answers paperInstaller) [first, second] := by
  have hruns :
      let run := newsTree.run (paperInstaller.ensureInstalled true)
      let run' := run.2.run (paperInstaller.ensureInstalled false)
      run.1 = true ∧ run'.1 = true ∧ run'.2.isPresent ⟨"/client/paper"⟩ = true := by
    decide +kernel
  obtain ⟨hanswer, hanswer', hpresent⟩ := hruns
  have hstart : paperInstaller.Calls newsTree [] newsTree := .start
  obtain ⟨first, hfirst, hforce, hinstalled, hafter⟩ := hstart.exists_call true
  obtain ⟨second, hsecond, hforce', hinstalled', hafter'⟩ := hfirst.exists_call false
  rw [hafter] at hinstalled' hafter'
  refine ⟨first, second, hsecond, hforce, hinstalled.trans hanswer, hforce', ?_, ?_, ?_⟩
  · exact hinstalled'.trans hanswer'
  · rw [hafter']
    exact hpresent
  · exact installed_or_skipped hsecond

/-- A file that cannot be copied fails the first call. The binary is in place by then, so the second
one skips, and the file is still missing. -/
theorem installed_without_aux :
    let i : Installer :=
      { newsInstaller with auxFiles := [{ name := "absent", overwrite := true }] }
    let first := newsTree.run (i.ensureInstalled false)
    let second := first.2.run (i.ensureInstalled false)
    first.1 = false ∧ second.1 = true ∧ second.2.isPresent ⟨"/client/absent"⟩ = false := by
  decide +kernel

end Overseer
