import Overseer.Proofs.Files.PlainNames
import Overseer.Proofs.Installing.Repeating

/-!
A successful installation leaves a binary that runs.

Once the turn of the binary went through, both binaries can be read, they are the same, and the
installed one has its permission bits (`Installer.Ready`). The turns of the auxiliary files keep
this as long as none of them comes to the name of the binary (`Installer.SparesBinary`), so that an
answer that the worker is installed means that its binary is current and may be run, unless the call
only found it current (`installed_runnable`).
-/

namespace Overseer

open Program

/-! ### Reading -/

namespace Tree

variable {t t' : Tree} {path source : Path} {content : ByteArray}

/-- A file that is present can be read if its owner may. -/
theorem readBytes_eq_ok_iff :
    t.readBytes path = .ok content ↔ t.isPresent path = true ∧
      ∃ mode, t.holding? path.place = some (.file content mode) ∧ mode &&& Right.read.bit ≠ 0 := by
  constructor
  · intro h
    unfold readBytes at h
    obtain ⟨found, hfound, h⟩ := Except.bind_eq_ok h
    obtain ⟨u, hallowed, h⟩ := Except.bind_eq_ok h
    refine ⟨isPresent_iff.mpr ⟨found, hfound⟩, ?_⟩
    obtain ⟨hfrom, hplace, -⟩ := find_ok hfound
    rw [← hplace, holding?_of_from hfrom]
    cases hnode : found.node with
    | directory mode entries =>
      rw [hnode] at h
      cases h
    | file content' mode =>
      rw [hnode] at h hallowed
      cases h
      refine ⟨mode, rfl, fun hdenied => ?_⟩
      simp [demand, Node.allows, Node.mode, hdenied] at hallowed
  · rintro ⟨hpresent, mode, hthere, hread⟩
    obtain ⟨found, hfound⟩ := isPresent_iff.mp hpresent
    obtain ⟨hfrom, hplace, -⟩ := find_ok hfound
    rw [← hplace, holding?_of_from hfrom] at hthere
    cases hnode : found.node with
    | directory mode' entries =>
      rw [hnode] at hthere
      cases hthere
    | file content' mode' =>
      rw [hnode] at hthere
      cases hthere
      simp [readBytes, hfound, hnode, demand, Node.allows, Node.mode, hread, bind, Except.bind,
        pure, Except.pure]

/-- What was copied could be read. -/
theorem Carries.readable_of_copy {answer : Except IoFault Unit}
    (h : t.Carries ⟨.copy source path, answer⟩ t') (hok : answer = .ok ()) :
    ∃ content, t.readBytes source = .ok content := by
  cases h with
  | copy | torn => cases hok
  | works =>
    cases hcopy : t.copy source path with
    | error fault =>
      have hfailed : t.perform (.copy source path) = (.error fault, t) :=
        congrArg t.outcome hcopy
      rw [hfailed] at hok
      cases hok
    | ok made =>
      unfold Tree.copy at hcopy
      obtain ⟨found, hfound, hcopy⟩ := Except.bind_eq_ok hcopy
      obtain ⟨u, hallowed, hcopy⟩ := Except.bind_eq_ok hcopy
      cases hnode : found.node with
      | directory mode entries =>
        rw [hnode] at hcopy
        cases hcopy
      | file content mode =>
        rw [hnode] at hallowed
        refine ⟨content, ?_⟩
        simp [Tree.readBytes, hfound, hnode, hallowed, bind, Except.bind, pure, Except.pure]

end Tree

theorem copyAtomic_readable (source target : Path) (executable : Bool) (t : Tree) :
    Leaves t (Installer.copyAtomic source target executable) fun _ result _ =>
      result = .ok () → ∃ content, t.readBytes source = .ok content := by
  have hfill : Leaves t (Installer.fillAndRename source target executable) fun _ result _ =>
      result = .ok () → ∃ content, t.readBytes source = .ok content := by
    refine Leaves.question fun answer t₁ carried => ?_
    cases answer with
    | error fault => exact Leaves.done nofun
    | ok u =>
      intro moments result t' _ _
      exact carried.readable_of_copy rfl
  refine Leaves.bind hfill ?_
  intro first result t₁ hread
  cases result with
  | error fault => exact Leaves.question fun answer t' carried => Leaves.done nofun
  | ok u => exact Leaves.done fun _ => hread rfl

/-! ### Turns beside the binary -/

/-- Neither the entry nor its temporary sibling comes to a place where something stands. -/
structure Entry.Spares (e : Entry) (place : Place) : Prop where
  temporary : e.temporary.place ≠ place
  target : e.overwrite = true → e.target.place ≠ place

/-- What stands at a place stays as it is through the turn of an entry that spares it. -/
theorem Entry.Turn.Right.spared {turn : Entry.Turn} {place : Place} {h : Holding}
    (right : turn.Right) (spares : turn.entry.Spares place)
    (hthere : turn.before.holding? place = some h) : turn.after.holding? place = some h := by
  cases right with
  | kept stays present ok same =>
    rw [same]
    exact hthere
  | missed absent failed missed =>
    rw [missed.agrees place spares.temporary.symm]
    exact hthere
  | placed absent ok placed =>
    obtain ⟨content, mode, mode', -, -, hplace⟩ := placed.bundled
    have htarget : place ≠ turn.entry.target.place := by
      intro heq
      cases hoverwrite : turn.entry.overwrite with
      | true => exact spares.target hoverwrite heq.symm
      | false =>
        -- the target is there afterwards and something stood there before, so it was there before
        have hkeeps : turn.after.Keeps turn.before := placed.directories.symm.keeps
        have hpresent := hkeeps.isPresent placed.present (heq ▸ hthere)
        exact absurd ((absent hoverwrite).symm.trans hpresent) Bool.false_ne_true
    rw [hplace place, if_neg htarget, if_neg spares.temporary.symm]
    exact hthere

theorem Entry.Turn.Right.sameDirectories {turn : Entry.Turn} (right : turn.Right) :
    turn.before.SameDirectories turn.after := by
  cases right with
  | kept stays present ok same =>
    rw [same]
    exact .refl turn.before
  | missed absent failed missed => exact missed.directories
  | placed absent ok placed => exact placed.directories

namespace Installer

variable (i : Installer)

/-! ### A binary that runs -/

/-- Both binaries are there with the same content, and the installed one with its permission
bits. -/
structure Ready (content : ByteArray) (t : Tree) : Prop where
  bundled : t.readBytes i.source = .ok content
  present : t.isPresent i.installed = true
  installed : t.holding? i.installed.place = some (.file content executableMode)

/-- The installed binary has its execute bits. -/
def Executable (t : Tree) : Prop :=
  ∃ mode, t.run (Files.mode i.installed) = (.ok mode, t) ∧ mode &&& 0o111 = 0o111

variable {i} {t t' : Tree} {content : ByteArray}

theorem SameBinary.run_isCurrent (h : i.SameBinary t) : t.run i.isCurrent = (true, t) := by
  obtain ⟨bundled, installed, hbundled, hinstalled, hsame⟩ := h
  have hread {path : Path} {content : ByteArray} (h : t.readBytes path = .ok content) :
      t.run (hashFile path) = (.ok (Bytes.Sha256.digest content), t) := by
    have hcall : t.run (Files.readBytes path) = (t.readBytes path, t) := rfl
    rw [hashFile, Tree.run_bind, hcall, h]
    rfl
  have hrun : t.run i.isCurrent =
      (Bytes.Sha256.digest installed == Bytes.Sha256.digest bundled, t) := by
    rw [isCurrent, expectedHash, Tree.run_bind, Tree.run_bind, hread hbundled]
    change t.run (hashFile i.installed >>= _) = _
    rw [Tree.run_bind, hread hinstalled]
    rfl
  rw [hrun, byteArray_beq_iff.mpr hsame]

theorem Ready.sameBinary (h : i.Ready content t) : i.SameBinary t := by
  refine ⟨content, content, h.bundled, ?_, rfl⟩
  exact Tree.readBytes_eq_ok_iff.mpr ⟨h.present, _, h.installed, by decide⟩

theorem Ready.executable (h : i.Ready content t) : i.Executable t := by
  obtain ⟨found, hfound⟩ := Tree.isPresent_iff.mp h.present
  obtain ⟨hfrom, hplace, -⟩ := Tree.find_ok hfound
  have hinstalled := h.installed
  rw [← hplace, Tree.holding?_of_from hfrom] at hinstalled
  have hmode : found.node.mode = executableMode := by
    cases hnode : found.node with
    | directory mode entries => rw [hnode] at hinstalled; cases hinstalled
    | file content' mode => rw [hnode] at hinstalled; cases hinstalled; rfl
  have hrun : t.run (Files.mode i.installed) = ((t.find i.installed).map (·.node.mode), t) := rfl
  refine ⟨executableMode, ?_, by decide⟩
  rw [hrun, hfound, Except.map, hmode]

/-- The binary stays ready while directories stay and both files are as they were. -/
theorem Ready.of_same (h : i.Ready content t) (hdirectories : t.SameDirectories t')
    (hsource : ∀ holding, t.holding? i.source.place = some holding →
      t'.holding? i.source.place = some holding)
    (hinstalled : ∀ holding, t.holding? i.installed.place = some holding →
      t'.holding? i.installed.place = some holding) : i.Ready content t' := by
  obtain ⟨hpresent, mode, hthere, hread⟩ := Tree.readBytes_eq_ok_iff.mp h.bundled
  have hthere' := hsource _ hthere
  have hinstalled' := hinstalled _ h.installed
  constructor
  · refine Tree.readBytes_eq_ok_iff.mpr ⟨?_, mode, hthere', hread⟩
    exact hdirectories.keeps.isPresent hpresent hthere'
  · exact hdirectories.keeps.isPresent h.present hinstalled'
  · exact hinstalled'

theorem Ready.turn {turn : Entry.Turn} (h : i.Ready content turn.before) (right : turn.Right)
    (source : turn.entry.Spares i.source.place)
    (installed : turn.entry.Spares i.installed.place) : i.Ready content turn.after :=
  h.of_same right.sameDirectories (fun _ => right.spared source) (fun _ => right.spared installed)

theorem Ready.processes {entries : List Entry} {turns : List Entry.Turn}
    {result : Except InstallError Unit} (h : i.Ready content t)
    (goes : Processes t entries turns result t')
    (source : ∀ e ∈ entries, e.Spares i.source.place)
    (installed : ∀ e ∈ entries, e.Spares i.installed.place) : i.Ready content t' := by
  induction goes with
  | done t => exact h
  | next run ok more ih =>
    obtain ⟨hsource, hsources⟩ := List.forall_mem_cons.mp source
    obtain ⟨hinstalled, hinstalleds⟩ := List.forall_mem_cons.mp installed
    exact ih (h.turn run.right hsource hinstalled) hsources hinstalleds
  | stop run failed =>
    exact h.turn run.right (source _ List.mem_cons_self) (installed _ List.mem_cons_self)

/-! ### The name of the binary -/

/-- The names of the binary and of all targets are plain. -/
structure PlainNames (i : Installer) : Prop where
  binary : Path.isPlainName i.binaryName = true
  target : ∀ aux ∈ i.auxFiles, Path.isPlainName aux.targetName = true

/-- The binary is installed under the last name of the bundled one. -/
theorem PlainNames.places (plain : i.PlainNames) :
    ∃ name, Path.fileName? ⟨i.binaryName⟩ = some name ∧ i.installed.fileName? = some name ∧
      i.source.place.getLast? = some name ∧ i.installed.place.getLast? = some name := by
  obtain ⟨name, hname, hinstalled, hplace⟩ := i.installDir.join_of_isPlainName plain.binary
  obtain ⟨name', hname', -, hsource⟩ :=
    (i.assetDir.join i.platform.assetDir).join_of_isPlainName plain.binary
  rw [hname, Option.some.injEq] at hname'
  subst hname'
  refine ⟨name, hname, hinstalled, ?_, ?_⟩
  · rw [Installer.source, hsource, List.getLast?_concat]
  · rw [Installer.installed, hplace, List.getLast?_concat]

variable (i) in
/-- No auxiliary file comes to the name of the binary, and no temporary sibling of one does. One
that stays as it is may have the name, for then the binary is there already. -/
def SparesBinary : Prop :=
  ∀ aux ∈ i.auxFiles,
    (aux.overwrite = true → Path.fileName? ⟨aux.targetName⟩ ≠ Path.fileName? ⟨i.binaryName⟩) ∧
      some (partialName ⟨aux.targetName⟩) ≠ Path.fileName? ⟨i.binaryName⟩

instance : Decidable i.SparesBinary := inferInstanceAs (Decidable (∀ aux ∈ i.auxFiles, _))

theorem SparesBinary.auxEntry {aux : AuxFile} {place : Place} (h : i.SparesBinary)
    (plain : i.PlainNames) (haux : aux ∈ i.auxFiles)
    (hplace : place.getLast? = Path.fileName? ⟨i.binaryName⟩) : (i.auxEntry aux).Spares place := by
  obtain ⟨name, hname, htarget, htargetPlace⟩ :=
    i.installDir.join_of_isPlainName (plain.target aux haux)
  obtain ⟨hoverwrite, htemporary⟩ := h aux haux
  constructor
  · intro heq
    obtain ⟨holder, hholder⟩ := partialPath_place (i.auxEntry aux).target
    have hsame : partialName (i.auxEntry aux).target = partialName ⟨aux.targetName⟩ := by
      rw [partialName, partialName, hname]
      exact congrArg (fun last : Option String => "." ++ last.getD "" ++ ".partial") htarget
    rw [← heq, Entry.temporary, hholder, List.getLast?_concat, hsame] at hplace
    exact htemporary hplace
  · intro hreplaces heq
    rw [← heq] at hplace
    change (i.installDir.join aux.targetName).place.getLast? = _ at hplace
    rw [htargetPlace, List.getLast?_concat, ← hname] at hplace
    exact hoverwrite hreplaces hplace

/-- The bundled binary is never where the temporary sibling of the installed one goes. -/
theorem PlainNames.source_place_ne (plain : i.PlainNames) :
    i.source.place ≠ i.binaryEntry.temporary.place := by
  obtain ⟨name, -, hname, hsource, -⟩ := plain.places
  obtain ⟨holder, hholder⟩ := partialPath_place i.installed
  have hlast : i.binaryEntry.temporary.place.getLast? = some (partialName i.installed) := by
    rw [Entry.temporary]
    exact hholder ▸ List.getLast?_concat
  intro heq
  rw [← heq, hsource, Option.some.injEq] at hlast
  exact partialName_ne hname hlast.symm

theorem ready_of_placed {moments : List Moment} (plain : i.PlainNames)
    (placed : i.binaryEntry.Placed t moments t') (hread : t.readBytes i.source = .ok content) :
    i.Ready content t' := by
  obtain ⟨hpresent, mode, hthere, hbit⟩ := Tree.readBytes_eq_ok_iff.mp hread
  obtain ⟨content', mode', bits, hbundled, hbits, hplace⟩ := placed.bundled
  change t.holding? i.source.place = _ at hbundled
  rw [hthere] at hbundled
  cases hbundled
  have hne := plain.source_place_ne
  have hcopied : i.binaryEntry.copied content = content := if_neg hne.symm
  rw [hcopied, hbits rfl] at hplace
  have hinstalled : t'.holding? i.installed.place = some (.file content executableMode) :=
    (hplace i.installed.place).trans (if_pos rfl)
  -- the bundled binary may itself be what is installed
  obtain ⟨bits', hsource, hbit'⟩ : ∃ bits, t'.holding? i.source.place = some (.file content bits) ∧
      bits &&& Right.read.bit ≠ 0 := by
    by_cases hsame : i.source.place = i.installed.place
    · exact ⟨executableMode, by rw [hsame, hinstalled], by decide⟩
    · refine ⟨mode, ?_, hbit⟩
      exact (hplace i.source.place).trans ((if_neg hsame).trans ((if_neg hne).trans hthere))
  constructor
  · refine Tree.readBytes_eq_ok_iff.mpr ⟨?_, bits', hsource, hbit'⟩
    exact placed.directories.keeps.isPresent hpresent hsource
  · exact placed.present
  · exact hinstalled

/-- The turn of the binary leaves it ready. -/
theorem ready_of_turn {turn : Entry.Turn} (plain : i.PlainNames)
    (hentry : turn.entry = i.binaryEntry) (run : turn.Runs) (hok : turn.result = .ok ()) :
    ∃ content, i.Ready content turn.after := by
  obtain ⟨e, t, moments, result, t'⟩ := turn
  subst hentry
  obtain ⟨content, hread⟩ : ∃ content, t.readBytes i.source = .ok content :=
    copyAtomic_readable i.source i.installed true t run hok
  cases run.right with
  | kept stays => cases stays
  | missed absent failed => rw [failed] at hok; cases hok
  | placed absent ok placed => exact ⟨content, ready_of_placed plain placed hread⟩

/-- An installation that goes through leaves the binary ready. -/
theorem install_ready (plain : i.PlainNames) (spared : i.SparesBinary) (t : Tree) :
    Leaves t i.install fun _ result t' => result = .ok () → ∃ content, i.Ready content t' := by
  refine (i.install_leaves t).mono ?_
  rintro moments result t' ⟨preparing, prepared, turns, -, -, -, hgoes⟩ hok
  rcases hgoes with ⟨fault, hfault, -⟩ | hprocesses
  · rw [hfault] at hok
    cases hok
  · obtain ⟨name, hname, -, hsource, hinstalled⟩ := plain.places
    have hspares {place : Place} (hplace : place.getLast? = some name) :
        ∀ e ∈ i.auxFiles.map i.auxEntry, e.Spares place := by
      intro e he
      obtain ⟨aux, haux, rfl⟩ := List.mem_map.mp he
      exact spared.auxEntry plain haux (hplace.trans hname.symm)
    generalize hentries : i.entries = entries at hprocesses
    cases hprocesses with
    | done t => cases hentries
    | stop run failed => cases hok
    | next run ok more =>
      obtain ⟨hentry, hrest⟩ := List.cons.inj hentries
      subst hrest
      obtain ⟨content, hready⟩ := ready_of_turn plain hentry.symm run ok
      exact ⟨content, hready.processes more (hspares hsource) (hspares hinstalled)⟩

/-! ### Calls -/

theorem replace_ready (plain : i.PlainNames) (spared : i.SparesBinary) (t : Tree) :
    Leaves t i.replace fun _ installed t' => installed = true → ∃ content, i.Ready content t' := by
  refine Leaves.bind (install_ready plain spared t) ?_
  intro first result t₁ hready
  cases result with
  | error error => exact Leaves.done nofun
  | ok u => exact Leaves.done fun _ => hready rfl

/-- A call that installs all files leaves the binary ready; else it skips. -/
theorem Call.Runs.ready {c : Call} (run : c.Runs i) (plain : i.PlainNames)
    (spared : i.SparesBinary) (installed : c.installed = true) :
    (∃ content, i.Ready content c.after) ∨ c.Skips i := by
  obtain ⟨force, t, moments, answer, t'⟩ := c
  change OverFiles t (i.ensureInstalled force) moments answer t' at run
  rw [ensureInstalled_eq] at run
  cases force with
  | true => exact .inl (replace_ready plain spared t run installed)
  | false =>
    have houtdated : Leaves t i.replaceOutdated fun _ installed t' =>
        installed = true → (∃ content, i.Ready content t') ∨ (i.SameBinary t ∧ t' = t) := by
      refine Leaves.bind (i.isCurrent_leaves t) ?_
      rintro first current t₁ ⟨rfl, hcurrent⟩
      cases current with
      | true => exact Leaves.done fun _ => .inr ⟨hcurrent rfl, rfl⟩
      | false => exact (replace_ready plain spared t₁).mono fun _ _ _ h ok => .inl (h ok)
    rcases houtdated run installed with hready | ⟨hcurrent, hsame⟩
    · exact .inl hready
    · exact .inr ⟨rfl, hcurrent, hsame⟩

end Installer

/-- The names in a configuration that was accepted are plain. -/
theorem Config.plainNames {reading : Except IoFault String} {c : Config}
    (accepted : ofReading reading = .ok c) (platform : Platform) :
    (Installer.ofConfig c.worker platform).PlainNames := by
  have hplain := badName?_eq_none_iff.mp (badName?_of_ofReading accepted)
  constructor
  · exact hplain _ .binary
  · intro aux haux
    exact hplain _ (.auxTarget haux)

/-- An answer that the worker is installed means that right afterwards its binary is current and has
its execute bits, if no auxiliary file comes to the name of the binary. A call that only found the
binary current left it with the bits that it had. -/
theorem installed_runnable {reading : Except IoFault String} {c : Config} {platform : Platform}
    {call : Installer.Call} (accepted : Config.ofReading reading = .ok c)
    (spared : (Installer.ofConfig c.worker platform).SparesBinary)
    (run : call.Runs (Installer.ofConfig c.worker platform)) (installed : call.installed = true) :
    call.after.run (Installer.ofConfig c.worker platform).isCurrent = (true, call.after) ∧
      ((Installer.ofConfig c.worker platform).Executable call.after ∨
        call.Skips (Installer.ofConfig c.worker platform)) := by
  have plain := Config.plainNames accepted platform
  rcases run.ready plain spared installed with ⟨content, ready⟩ | skips
  · exact ⟨ready.sameBinary.run_isCurrent, .inl ready.executable⟩
  · refine ⟨?_, .inr skips⟩
    rw [skips.same]
    exact skips.current.run_isCurrent

/-- A configuration for the files of `newsTree`, but for the binary and the other files. -/
def clientConfig : String := "[worker]\nworking_dir = \"/client\"\nasset_dir = \"/assets\"\n"

/-- The file `news` comes under another name. -/
def paperConfig : String :=
  clientConfig ++ "binary_name = \"worker\"\n" ++
    "[[worker.aux_files]]\nname = \"news\"\ntarget = \"paper\""

/-- A forced call installs a binary that runs, with `news` beside it. -/
theorem installed_runnable_paper :
    ∃ (c : Config) (call : Installer.Call), Config.ofReading (.ok paperConfig) = .ok c ∧
      call.before = newsTree ∧ call.force = true ∧
      call.Runs (Installer.ofConfig c.worker .arm64) ∧ call.installed = true ∧
      call.after.run (Installer.ofConfig c.worker .arm64).isCurrent = (true, call.after) ∧
      ((Installer.ofConfig c.worker .arm64).Executable call.after ∨
        call.Skips (Installer.ofConfig c.worker .arm64)) := by
  have hruns : ∃ c ∈ (Config.ofText paperConfig).toOption,
      (Installer.ofConfig c.worker .arm64).SparesBinary ∧
        (newsTree.run ((Installer.ofConfig c.worker .arm64).ensureInstalled true)).1 = true := by
    decide +kernel
  obtain ⟨c, hc, spared, hanswer⟩ := hruns
  have accepted : Config.ofReading (.ok paperConfig) = .ok c := Except.eq_ok_of_mem_toOption hc
  obtain ⟨moments, run⟩ :=
    overFiles_run ((Installer.ofConfig c.worker .arm64).ensureInstalled true) newsTree
  exact ⟨c, ⟨true, newsTree, moments, _, _⟩, accepted, rfl, rfl, run, hanswer,
    installed_runnable accepted spared run hanswer⟩

/-- A binary that is there already keeps its bits even if they let nobody run it, an auxiliary file
may replace the binary under its own name, and a temporary sibling may take it away. -/
theorem installed_not_runnable :
    let i (c : Config) := Installer.ofConfig c.worker .arm64
    (∃ c ∈ (Config.ofText (clientConfig ++ "binary_name = \"worker\"\naux_files = []")).toOption,
      let t := newsTree.put ["client", "worker"] (.file "w".toUTF8 Node.fileMode)
      let run := t.run ((i c).ensureInstalled false)
      run.1 = true ∧ (run.2.run (Files.mode (i c).installed)).1.toOption = some 0o644) ∧
    (∃ c ∈ (Config.ofText (clientConfig ++ "binary_name = \"worker\"\n" ++
        "[[worker.aux_files]]\nname = \"news\"\ntarget = \"worker\"\noverwrite = true")).toOption,
      let run := newsTree.run ((i c).ensureInstalled true)
      run.1 = true ∧ (run.2.run (i c).isCurrent).1 = false) ∧
    (∃ c ∈ (Config.ofText (clientConfig ++ "binary_name = \".paper.partial\"\n" ++
        "[[worker.aux_files]]\nname = \"news\"\ntarget = \"paper\"")).toOption,
      let t := newsTree.put ["assets", "arm64-v8a", ".paper.partial"]
        (.file "w".toUTF8 Node.fileMode)
      let run := t.run ((i c).ensureInstalled false)
      run.1 = true ∧ (run.2.run (i c).isCurrent).1 = false) := by
  decide +kernel

end Overseer
