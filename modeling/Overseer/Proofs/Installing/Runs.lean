import Overseer.Proofs.Installing.Entries

/-!
How an installation goes.

The install directory is prepared (`Installer.Prepares`), and then the entries take their turns up
to the first fault (`Processes`). `Installer.install_leaves` puts both together; what every turn
keeps is kept by all of them (`Processes.invariant`).
-/

namespace Overseer

open Program

/-! ### Rows of turns -/

/-- Entries take their turns from one tree to another, up to the first fault. -/
inductive Processes :
    Tree → List Entry → List Entry.Turn → Except InstallError Unit → Tree → Prop where
  | done (t : Tree) : Processes t [] [] (.ok ()) t
  | next {turn : Entry.Turn} {rest : List Entry} {turns : List Entry.Turn}
      {result : Except InstallError Unit} {t' : Tree} (run : turn.Runs) (ok : turn.result = .ok ())
      (more : Processes turn.after rest turns result t') :
      Processes turn.before (turn.entry :: rest) (turn :: turns) result t'
  | stop {turn : Entry.Turn} {rest : List Entry} {error : InstallError} (run : turn.Runs)
      (failed : turn.result = .error error) :
      Processes turn.before (turn.entry :: rest) [turn] (.error error) turn.after

theorem installEntries_leaves (entries : List Entry) (t : Tree) :
    Leaves t (installEntries entries) fun moments result t' =>
      ∃ turns, Processes t entries turns result t' ∧
        moments = turns.flatMap Entry.Turn.moments := by
  induction entries generalizing t with
  | nil => exact Leaves.done ⟨[], .done t, rfl⟩
  | cons e rest ih =>
    refine Leaves.bind (.self t e.install) ?_
    rintro first result t₁ run
    let turn : Entry.Turn := ⟨e, t, first, result, t₁⟩
    have hruns : turn.Runs := run
    cases result with
    | error error => exact Leaves.done ⟨[turn], .stop hruns rfl, by simp [turn]⟩
    | ok u =>
      refine (ih t₁).mono ?_
      rintro second result t' ⟨turns, hprocesses, rfl⟩
      exact ⟨turn :: turns, .next hruns rfl hprocesses, rfl⟩

namespace Processes

variable {t t' : Tree} {entries : List Entry} {turns : List Entry.Turn}
  {result : Except InstallError Unit}

theorem right (h : Processes t entries turns result t') : ∀ turn ∈ turns, turn.Right := by
  induction h with
  | done t => exact nofun
  | next run ok more ih => exact List.forall_mem_cons.mpr ⟨run.right, ih⟩
  | stop run failed => exact List.forall_mem_singleton.mpr run.right

theorem entries_prefix (h : Processes t entries turns result t') :
    turns.map Entry.Turn.entry <+: entries := by
  induction h with
  | done t => exact List.prefix_rfl
  | next run ok more ih => exact (List.prefix_cons_inj _).mpr ih
  | stop run failed => exact (List.prefix_cons_inj _).mpr List.nil_prefix

/-- Without a fault all entries have their turns. -/
theorem complete (h : Processes t entries turns result t') (hok : result = .ok ()) :
    turns.map Entry.Turn.entry = entries ∧ ∀ turn ∈ turns, turn.result = .ok () := by
  induction h with
  | done t => exact ⟨rfl, nofun⟩
  | next run ok more ih =>
    obtain ⟨hentries, hturns⟩ := ih hok
    exact ⟨congrArg _ hentries, List.forall_mem_cons.mpr ⟨ok, hturns⟩⟩
  | stop run failed => cases hok

/-- The fault of an installation is that of its last turn. -/
theorem broken {error : InstallError} (h : Processes t entries turns result t')
    (herror : result = .error error) :
    ∃ before last, turns = before ++ [last] ∧ (∀ turn ∈ before, turn.result = .ok ()) ∧
      last.result = .error error ∧ last.after = t' := by
  induction h with
  | done t => cases herror
  | @next turn rest turns result t' run ok more ih =>
    obtain ⟨before, last, rfl, hbefore, hlast⟩ := ih herror
    exact ⟨turn :: before, last, rfl, List.forall_mem_cons.mpr ⟨ok, hbefore⟩, hlast⟩
  | @stop turn rest error' run failed =>
    exact ⟨[], turn, rfl, nofun, failed.trans herror, rfl⟩

/-- What every turn keeps, at each of its moments, is kept throughout. -/
theorem invariant {inv : Tree → Prop} (h : Processes t entries turns result t') (start : inv t)
    (step : ∀ turn ∈ turns, turn.Right → inv turn.before →
      inv turn.after ∧ ∀ m ∈ turn.moments, inv m.after) :
    inv t' ∧ ∀ m ∈ turns.flatMap Entry.Turn.moments, inv m.after := by
  induction h with
  | done t => exact ⟨start, nofun⟩
  | next run ok more ih =>
    obtain ⟨hfirst, hrest⟩ := List.forall_mem_cons.mp step
    obtain ⟨hafter, hmoments⟩ := hfirst run.right start
    obtain ⟨hend, hmore⟩ := ih hafter hrest
    exact ⟨hend, List.forall_mem_append.mpr ⟨hmoments, hmore⟩⟩
  | stop run failed =>
    obtain ⟨hafter, hmoments⟩ := step _ (List.mem_singleton_self _) run.right start
    exact ⟨hafter, by simpa using hmoments⟩

end Processes

/-! ### Preparing the directory -/

namespace Installer

variable (i : Installer)

/-- Lets the owner write to the install directory. -/
def openDir : Program Files (Except InstallError Unit) := do
  match ← Files.mode i.installDir with
  | .error fault => return .error (.createDir i.installDir fault)
  | .ok mode =>
    if mode &&& ownerWrite = 0 then
      match ← Files.setMode i.installDir (mode ||| ownerAll) with
      | .error fault => return .error (.createDir i.installDir fault)
      | .ok () => return .ok ()
    else return .ok ()

theorem prepareDir_eq :
    i.prepareDir = Files.isPresent i.installDir >>= fun present =>
      (if present then pure (.ok ()) else Files.createDirectories i.installDir) >>= fun
        | .error fault => return .error (.createDir i.installDir fault)
        | .ok () => i.openDir := by
  unfold prepareDir
  dsimp only
  congr 1
  funext present
  cases present with
  | true => rfl
  | false => rfl

/-- If its owner could not write to the install directory, all bits of the owner may have been added
to those that it had. -/
def Opens (t t' : Tree) : Prop :=
  t' = t ∨ ∃ before, t.holding? i.installDir.place = some before ∧
    before.mode &&& ownerWrite = 0 ∧
    t.Sets i.installDir.place (some (before.withMode (before.mode ||| ownerAll))) t'

/-- Directories that lead to the install directory may have been made, and it is opened. -/
def Prepares (t t' : Tree) : Prop :=
  ∃ made, t.Extends (i.installDir.ancestors.map Path.place) made ∧ i.Opens made t'

theorem openDir_leaves (t : Tree) :
    Leaves t i.openDir fun moments result t' =>
      (result = .ok () ∨ ∃ fault, result = .error (.createDir i.installDir fault)) ∧
        i.Opens t t' ∧ ∀ m ∈ moments, i.Opens t m.after := by
  refine Leaves.question fun mode t₁ carried => ?_
  obtain ⟨rfl, hmode⟩ := carried.of_mode
  have hsame : i.Opens t₁ t₁ := .inl rfl
  cases mode with
  | error fault =>
    exact Leaves.done ⟨.inr ⟨fault, rfl⟩, hsame, List.forall_mem_singleton.mpr hsame⟩
  | ok mode =>
    by_cases hwrite : mode &&& ownerWrite = 0
    · simp only [if_pos hwrite]
      refine Leaves.question fun answer t₂ carried => ?_
      rcases carried.of_setMode with ⟨before, rfl, hbefore, hset⟩ | ⟨fault, rfl, rfl⟩
      · obtain rfl : before.mode = mode := by
          obtain ⟨holding, hholding, heq⟩ := hmode mode rfl
          rw [Option.some.inj (hbefore.symm.trans hholding), heq]
        have hopened : i.Opens t₁ t₂ := .inr ⟨before, hbefore, hwrite, hset⟩
        refine Leaves.done ⟨.inl rfl, hopened, ?_⟩
        exact List.forall_mem_cons.mpr ⟨hsame, List.forall_mem_singleton.mpr hopened⟩
      · refine Leaves.done ⟨.inr ⟨fault, rfl⟩, hsame, ?_⟩
        exact List.forall_mem_cons.mpr ⟨hsame, List.forall_mem_singleton.mpr hsame⟩
    · simp only [if_neg hwrite]
      exact Leaves.done ⟨.inl rfl, hsame, List.forall_mem_singleton.mpr hsame⟩

theorem prepareDir_leaves (t : Tree) :
    Leaves t i.prepareDir fun moments result t' =>
      (result = .ok () ∨ ∃ fault, result = .error (.createDir i.installDir fault)) ∧
        i.Prepares t t' ∧ ∀ m ∈ moments, i.Prepares t m.after := by
  have hsame : i.Prepares t t := ⟨t, .refl t _, .inl rfl⟩
  have hopen {made : Tree} (hmade : t.Extends (i.installDir.ancestors.map Path.place) made) :
      Leaves made i.openDir fun moments result t' =>
        (result = .ok () ∨ ∃ fault, result = .error (.createDir i.installDir fault)) ∧
          i.Prepares t t' ∧ ∀ m ∈ moments, i.Prepares t m.after := by
    refine (i.openDir_leaves made).mono ?_
    rintro moments result t' ⟨hresult, hopens, hmoments⟩
    exact ⟨hresult, ⟨made, hmade, hopens⟩, fun m hm => ⟨made, hmade, hmoments m hm⟩⟩
  rw [prepareDir_eq]
  refine Leaves.question fun present t₁ carried => ?_
  obtain ⟨-, rfl⟩ := carried.isPresent
  cases present with
  | true =>
    refine (hopen (.refl t₁ _)).mono ?_
    rintro moments result t' ⟨hresult, hprepares, hmoments⟩
    exact ⟨hresult, hprepares, List.forall_mem_cons.mpr ⟨hsame, hmoments⟩⟩
  | false =>
    refine Leaves.question fun answer made carried => ?_
    have hmade := carried.of_createDirectories
    have hthen : i.Prepares t₁ made := ⟨made, hmade, .inl rfl⟩
    cases answer with
    | error fault =>
      refine Leaves.done ⟨.inr ⟨fault, rfl⟩, hthen, ?_⟩
      exact List.forall_mem_cons.mpr ⟨hsame, List.forall_mem_singleton.mpr hthen⟩
    | ok u =>
      refine (hopen hmade).mono ?_
      rintro moments result t' ⟨hresult, hprepares, hmoments⟩
      refine ⟨hresult, hprepares, ?_⟩
      exact List.forall_mem_cons.mpr ⟨hsame, List.forall_mem_cons.mpr ⟨hthen, hmoments⟩⟩

/-- An installation fails at its directory, or its entries take their turns. -/
theorem install_leaves (t : Tree) :
    Leaves t i.install fun moments result t' =>
      ∃ preparing prepared turns, moments = preparing ++ turns.flatMap Entry.Turn.moments ∧
        i.Prepares t prepared ∧ (∀ m ∈ preparing, i.Prepares t m.after) ∧
        ((∃ fault, result = .error (.createDir i.installDir fault) ∧ turns = [] ∧
            t' = prepared) ∨ Processes prepared i.entries turns result t') := by
  rw [i.install_eq]
  refine Leaves.bind (i.prepareDir_leaves t) ?_
  rintro preparing outcome prepared ⟨hresult, hprepares, hpreparing⟩
  cases outcome with
  | error error =>
    obtain ⟨fault, rfl⟩ : ∃ fault, error = .createDir i.installDir fault := by
      rcases hresult with hok | ⟨fault, hfault⟩
      · cases hok
      · exact ⟨fault, Except.error.inj hfault⟩
    refine Leaves.done ⟨preparing, prepared, [], rfl, hprepares, hpreparing, ?_⟩
    exact .inl ⟨fault, rfl, rfl, rfl⟩
  | ok u =>
    refine (installEntries_leaves i.entries prepared).mono ?_
    rintro rest result t' ⟨turns, hprocesses, rfl⟩
    exact ⟨preparing, prepared, turns, rfl, hprepares, hpreparing, .inr hprocesses⟩

end Installer

/-! ### An example -/

/-- A binary and a file `news` that is to replace another one. -/
def newsInstaller : Installer where
  installDir := ⟨"/client"⟩
  assetDir := ⟨"/assets"⟩
  binaryName := "worker"
  platform := .arm64
  auxFiles := [{ name := "news", overwrite := true }]

/-- A directory stands where the file `news` belongs. -/
def newsTree : Tree :=
  ⟨.directory Node.directoryMode [
    ("assets", .directory Node.directoryMode [
      ("arm64-v8a", .directory Node.directoryMode [("worker", .file "w".toUTF8 Node.fileMode)]),
      ("news", .file "n".toUTF8 Node.fileMode)]),
    ("client", .directory Node.directoryMode [("news", .directory Node.directoryMode [])])]⟩

end Overseer
