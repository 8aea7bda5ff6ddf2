import Overseer.Proofs.Files.Writing
import Overseer.Proofs.Shutdown.Handling
import Overseer.Scenario.Service

/-!
How a supervisor ends.

A stop is carried out without a pause, so that nothing comes between it and the end of the
supervisor (`Scenario.Service.wake_shutdown`). Then the board is closed, and the last thing that
happens to the files is that the status is written once more (`StatusWriter.finish_leaves`,
`Scenario.Service.finish_ends`). With what a run of the poller does before, this is
`shutdown_complete`.
-/

namespace Overseer

open Program

/-- An effect that takes no time. -/
def Effect.Prompt (effect : Effect) : Prop := ∀ millis, effect ≠ .sleep millis

theorem Effect.Releases.prompt {effect : Effect} (h : effect.Releases) : effect.Prompt := by
  rintro millis rfl
  rcases h with h | ⟨lock, h⟩
  · cases h
  · cases h

/-! ### The last writes -/

namespace StatusWriter

/-- How the last writes go: the writer receives what is left, and after everything else the summary
of the snapshot on the board is written. It stands in the file, unless the files refused it. -/
def Finishes (w : StatusWriter) (path : Path) (board : Board) (now : Timestamp) (t : Tree)
    (moments : List Moment) (t' : Tree) : Prop :=
  ∃ earlier w' t₁ last, moments = earlier ++ last ∧
    OverFiles t (w.catchUp board now) earlier w' t₁ ∧
    (StatusSummary.ofSnapshot board.snapshot now).Lands path last t'

theorem finish_leaves (w : StatusWriter) (path : Path) (board : Board) (now : Timestamp)
    (t : Tree) :
    Leaves t (w.finish path board now) fun moments _ t' =>
      w.Finishes path board now t moments t' := by
  refine (Leaves.self t (w.catchUp board now)).bind fun earlier w' t₁ hcaught => ?_
  refine ((StatusSummary.ofSnapshot board.snapshot now).writeFile_leaves path t₁).mono ?_
  intro last _ t' hlands
  exact ⟨earlier, w', t₁, last, rfl, hcaught, hlands⟩

end StatusWriter

namespace Scenario

/-! ### Actions on a machine -/

namespace Machine

/-- An action that does not sleep is carried out at once. -/
theorem proceed_eq {α : Type} {action : Action α} (m : Machine)
    (h : Asks Effect.Prompt action) :
    m.proceed action = (.finished (m.run action).1, (m.run action).2) := by
  induction action generalizing m with
  | done a => rfl
  | ask op next ih =>
    have hrest := ih (m.perform op).1 (m.perform op).2 (h.later _)
    cases op with
    | sleep millis => exact absurd rfl (h.first (fun _ => Effect.plain) millis)
    | _ => exact hrest

/-- What no effect of an action touches stays. -/
theorem run_frame {α β : Type} {allowed : Effect → Prop} (view : Machine → β)
    (touch : ∀ (m : Machine) effect, allowed effect → view (m.perform effect).2 = view m)
    {action : Action α} (m : Machine) (h : Asks allowed action) :
    view (m.run action).2 = view m := by
  induction action generalizing m with
  | done a => rfl
  | ask op next ih =>
    have hrest := ih (m.perform op).1 (m.perform op).2 (h.later _)
    exact hrest.trans (touch m op (h.first fun _ => Effect.plain))

theorem onFiles_eq {α : Type} (m : Machine) (p : Program Files α) :
    m.onFiles p = ((m.tree.run p).1, { m with tree := (m.tree.run p).2 }) :=
  rfl

/-- A shutdown leaves the processes and the board alone. -/
theorem perform_releases (m : Machine) (effect : Effect) (h : effect.Releases) :
    (m.perform effect).2.running = m.running ∧ (m.perform effect).2.board = m.board := by
  rcases h with rfl | ⟨lock, rfl⟩
  · exact ⟨rfl, rfl⟩
  · exact ⟨rfl, rfl⟩

end Machine

/-! ### The end of a supervisor -/

namespace Service

/-- How the supervisor that was running ends: what was on its board is written last. -/
structure Ends (s : Service) (live : Live) (s' : Service) : Prop where
  stopped : s'.live = none ∧ s'.ending = some (.ok ())
  /-- The snapshot stays, and so do the processes. -/
  snapshot : s'.machine.board.snapshot = s.machine.board.snapshot
  running : s'.machine.running = s.machine.running
  /-- The last writes, of the snapshot that stays, are the last thing that happens to the files. -/
  written :
    let path := DataDir.statusFile live.startup.dir
    let board := s'.machine.board
    ∃ before moments,
      OverFiles before (live.writer.finish path board s'.now) moments () s'.machine.tree ∧
        live.writer.Finishes path board s'.now before moments s'.machine.tree

/-- The last writes, and nothing else, happen to the machine. -/
theorem finish_machine (s : Service) (live : Live) :
    (s.finish live).machine =
      { s.machine with
        board := s.machine.board.close
        tree := (s.machine.tree.run (live.writer.finish (DataDir.statusFile live.startup.dir)
          s.machine.board.close s.now)).2 } := by
  unfold finish
  simp only [Machine.onFiles_eq]

theorem finish_live (s : Service) (live : Live) :
    (s.finish live).live = none ∧ (s.finish live).ending = some (.ok ()) := by
  unfold finish
  simp only [and_self]

theorem finish_ends (s : Service) (live : Live) : s.Ends live (s.finish live) := by
  have hmachine := s.finish_machine live
  have hnow : (s.finish live).now = s.now := by
    unfold now clock
    rw [hmachine]
    rfl
  constructor
  · exact s.finish_live live
  · rw [hmachine]
    rfl
  · rw [hmachine]
  · intro path board
    have hboard : board = s.machine.board.close := congrArg Machine.board hmachine
    have htree : (s.finish live).machine.tree =
        (s.machine.tree.run (live.writer.finish path board (s.finish live).now)).2 := by
      rw [hnow, hboard, hmachine]
    obtain ⟨moments, hrun⟩ :=
      overFiles_run (live.writer.finish path board (s.finish live).now) s.machine.tree
    rw [htree]
    exact ⟨s.machine.tree, moments, hrun, live.writer.finish_leaves path board _ _ hrun⟩

/-- A stop is carried out at once. -/
theorem wake_shutdown (s : Service) (live : Live) (session : Session) :
    s.wake live session (.command .shutdown) =
      { s with machine := (s.machine.run session.poller.shutdown).2 }.finish live := by
  have hproceed := s.machine.proceed_eq
    (session.poller.shutdown_asks.mono fun _ h => h.prompt)
  have hstop : s.wake live session (.command .shutdown) = s.stop live session.poller.shutdown := rfl
  rw [hstop, stop, hproceed]

/-- A stop keeps the snapshot and the processes, and has the snapshot written. -/
theorem wake_ends (s : Service) (live : Live) (session : Session) :
    s.Ends live (s.wake live session (.command .shutdown)) := by
  have hrun {β : Type} (view : Machine → β)
      (touch : ∀ (m : Machine) effect, effect.Releases → view (m.perform effect).2 = view m) :=
    Machine.run_frame view touch s.machine session.poller.shutdown_asks
  have hends := finish_ends { s with machine := (s.machine.run session.poller.shutdown).2 } live
  rw [wake_shutdown]
  exact {
    stopped := hends.stopped
    snapshot := hends.snapshot.trans (congrArg Board.snapshot
      (hrun Machine.board fun m effect h => (m.perform_releases effect h).2))
    running := hrun Machine.running fun m effect h => (m.perform_releases effect h).1
    written := hends.written }

theorem work_live (s : Service) (live : Live) (action : Action Session) :
    (s.work live action).live ≠ none := by
  unfold work
  split <;> exact nofun

/-- An action of the poller that leaves no supervisor is its last one. -/
theorem stop_ends {s : Service} {live : Live} {action : Action Poller}
    (gone : (s.stop live action).live = none) :
    ∃ s₁ : Service, s₁.Ends live (s.stop live action) := by
  unfold stop at gone ⊢
  split at gone
  · exact ⟨_, finish_ends _ live⟩
  · cases gone

/-- However a supervisor ends, the last snapshot is written last. -/
theorem act?_ends {s s' : Service} {live : Live} (running : s.live = some live)
    (act : s.act? = some s') (gone : s'.live = none) :
    ∃ s₁ : Service, s₁.Ends live s' := by
  unfold act? at act
  rw [running] at act
  dsimp only at act
  split at act
  · cases act
    cases gone
  · split at act
    · split at act
      · cases act
        exact absurd gone (work_live s live _)
      · cases act
    · split at act
      · cases act
        exact stop_ends gone
      · cases act
    · rename_i session command commands _ _
      cases act
      unfold wake at gone ⊢
      split at gone
      · exact absurd gone (work_live s _ _)
      · obtain ⟨s₁, hends⟩ := stop_ends gone
        exact ⟨s₁, hends.stopped, hends.snapshot, hends.running, hends.written⟩
    · split at act
      · cases act
        exact absurd gone (work_live s live _)
      · cases act

end Service

end Scenario

/-- A shutdown is complete. A run of the poller handles what came before the stop, then only closes
the channel and releases the locks. A supervisor that is told to stop, and any that ends, has the
last writes done last, and these leave the summary of its last snapshot in the file or were
refused. -/
theorem shutdown_complete {session : Session} {wakes : List (Nat × Wake)} {s s' : Socket}
    {steps : List Carried} {p : Poller} (run : OverSocket s (session.run wakes) steps p s') :
    (∃ handled last session₁ s₁, session.Closes s wakes steps p s' handled last session₁ s₁) ∧
      (∀ (service : Scenario.Service) (live : Scenario.Live) (session : Session),
        service.Ends live (service.wake live session (.command .shutdown))) ∧
      (∀ (service service' : Scenario.Service) (live : Scenario.Live), service.live = some live →
        service.act? = some service' → service'.live = none →
          ∃ before : Scenario.Service, before.Ends live service') ∧
      ∀ (writer : StatusWriter) path board now t,
        Leaves t (writer.finish path board now) fun moments _ t' =>
          writer.Finishes path board now t moments t' := by
  refine ⟨Session.closes_run run, Scenario.Service.wake_ends, ?_, StatusWriter.finish_leaves⟩
  intro service service' live running act gone
  exact Scenario.Service.act?_ends running act gone

/-- A connected poller that holds both locks. -/
def Session.holding : Session :=
  let poller := Poller.ofConfig {} .arm64 ⟨"", ""⟩ true
  let connection := { poller.connection with state := .authenticated }
  .start { poller with connection, locks := ⟨true, true⟩ } 0

/-- It is told to read once more, then to stop, and then to read again. -/
def Session.wakesAround : List (Nat × Wake) :=
  [(0, .command .forceRefresh), (1, .command .shutdown), (2, .command .forceRefresh)]

/-- Its supervisor is told to stop. -/
def Scenario.Live.toldToStop : Live where
  startup := { dir := ⟨"/data"⟩, config := {}, displayOn := true }
  activity := .waiting Session.holding
  commands := [.shutdown]
  config := {}
  displayOn := true
  nextLook := 1
  writer := { path := DataDir.statusFile ⟨"/data"⟩, position := 0 }

/-- The machine has nothing but an empty data directory. -/
def Scenario.Service.toldToStop : Service where
  machine :=
    { tree := ⟨.directory Node.directoryMode [("data", .directory Node.directoryMode [])]⟩
      server := { address := none, replies := .inTurn [] } }
  home := ⟨"/data"⟩
  live := some .toldToStop

/-- Against a worker that answers, the first read takes six requests, and the second one is not
handled. The supervisor ends at once, and its status file is written. -/
theorem shutdown_complete_holding :
    let live := Scenario.Live.toldToStop
    let service := Scenario.Service.toldToStop
    let path := DataDir.statusFile live.startup.dir
    (∃ steps p s,
      OverSocket { stream := some 0 } (Session.holding.run Session.wakesAround) steps p s ∧
      (steps.flatMap fun c => writes c.streams).length = 6 ∧ p.locks = {} ∧
      ∃ handled last session₁ s₁, Session.holding.Closes { stream := some 0 } Session.wakesAround
        steps p s handled last session₁ s₁) ∧
    service.Ends live (service.wake live Session.holding (.command .shutdown)) ∧
    (∃ service', service.act? = some service' ∧ service'.live = none ∧
      (∃ before : Scenario.Service, before.Ends live service') ∧
      (service'.machine.tree.readText path).toOption =
        some (StatusSummary.ofSnapshot {} ⟨0⟩).text) ∧
    Leaves .empty (live.writer.finish path {} ⟨0⟩) fun moments _ t' =>
      live.writer.Finishes path {} ⟨0⟩ .empty moments t' := by
  intro live service path
  have hrun := overSocket_carryOut politePeer (fun _ => Effect.plain) [] { stream := some 0 }
    (Session.holding.run Session.wakesAround)
  have hread :
      let run := carryOut politePeer (fun _ => Effect.plain) [] { stream := some 0 }
        (Session.holding.run Session.wakesAround)
      (run.1.flatMap fun c => writes c.streams).length = 6 ∧ run.2.1.locks = {} := by
    decide +kernel
  generalize carryOut politePeer (fun _ => Effect.plain) [] { stream := some 0 }
    (Session.holding.run Session.wakesAround) = run at hrun hread
  obtain ⟨hwritten, hlocks⟩ := hread
  obtain ⟨hcloses, hwake, hact, hfinish⟩ := shutdown_complete hrun
  have hacts : service.act? =
      some (service.wake { live with commands := [] } Session.holding (.command .shutdown)) := rfl
  have hgone : (service.wake { live with commands := [] } Session.holding
      (.command .shutdown)).live = none := by
    rw [Scenario.Service.wake_shutdown]
    exact (Scenario.Service.finish_live _ _).1
  refine ⟨⟨run.1, run.2.1, run.2.2, hrun, hwritten, hlocks, hcloses⟩, hwake service live _,
    ⟨_, hacts, hgone, hact service _ live rfl hacts hgone, ?_⟩, hfinish ..⟩
  decide +kernel

end Overseer
