import Overseer.Proofs.Shutdown.Releasing

/-!
What a run handles before it shuts down.

A run handles wakes one after the other (`Session.Handles`), up to a stop or to the last, and then
shuts down from whatever state that left (`Session.handles_run`). Its commands are those that were
queued before the stop, each once and in order.
-/

namespace Overseer

/-- The command of a wake that is no tick. -/
def Wake.command? : Wake → Option Command
  | tick => none
  | command c => some c

/-- A wake that was handled, with what was carried out for it. -/
structure Handled where
  now : Nat
  wake : Wake
  steps : List Carried

namespace Session

/-- Wakes are handled one after the other over a socket. -/
inductive Handles : Session → Socket → List Handled → Session → Socket → Prop where
  | done (session : Session) (s : Socket) : Handles session s [] session s
  | wake {session session₁ session' : Session} {s s₁ s' : Socket} {now : Nat} {wake : Wake}
      {action : Action Session} {steps : List Carried} {more : List Handled}
      (handled : session.handle now wake = some action)
      (carried : OverSocket s action steps session₁ s₁)
      (rest : Handles session₁ s₁ more session' s') :
      Handles session s (⟨now, wake, steps⟩ :: more) session' s'

/-- Whether a wake lets the session go on. -/
def goesOn (wake : Nat × Wake) : Bool := wake.2 ≠ .command .shutdown

/-- Only a stop is not handled. -/
theorem handle_eq_none_iff {session : Session} {now : Nat} {wake : Wake} :
    session.handle now wake = none ↔ wake = .command .shutdown := by
  constructor
  · intro h
    cases wake with
    | tick => cases h
    | command command =>
      cases command with
      | forceRefresh => cases h
      | displayChanged on => cases h
      | reconfigure polling =>
        unfold handle at h
        cases hreconfigure : session.poller.reconfigure polling with
        | mk period? poller =>
          simp only [hreconfigure] at h
          cases period? <;> cases h
      | shutdown => rfl
  · rintro rfl
    rfl

/-- How a run of a session over a socket goes. -/
structure Closes (session : Session) (s : Socket) (wakes : List (Nat × Wake))
    (steps : List Carried) (p : Poller) (s' : Socket) (handled : List Handled) (last : List Carried)
    (session₁ : Session) (s₁ : Socket) : Prop where
  parts : steps = handled.flatMap Handled.steps ++ last
  /-- The wakes before a stop are handled in order, -/
  handles : session.Handles s handled session₁ s₁
  wakes_eq : handled.map (fun h => (h.now, h.wake)) = wakes.takeWhile goesOn
  /-- and of the commands those before it. -/
  commands_eq : handled.filterMap (fun h => h.wake.command?) =
    (wakes.filterMap fun wake => wake.2.command?).takeWhile (· ≠ .shutdown)
  /-- All the rest is a shutdown. -/
  shutsDown : session₁.poller.ShutsDown s₁ last p s'

theorem commands_takeWhile (wakes : List (Nat × Wake)) :
    (wakes.takeWhile goesOn).filterMap (fun wake => wake.2.command?) =
      (wakes.filterMap fun wake => wake.2.command?).takeWhile (· ≠ .shutdown) := by
  induction wakes with
  | nil => rfl
  | cons wake rest ih =>
    obtain ⟨now, wake⟩ := wake
    cases wake with
    | tick => simpa [goesOn, Wake.command?] using ih
    | command command =>
      by_cases hstop : command = .shutdown
      · simp [goesOn, Wake.command?, hstop]
      · simpa [goesOn, Wake.command?, hstop] using ih

/-- A run is a number of wakes and a shutdown. -/
theorem handles_run {session : Session} {wakes : List (Nat × Wake)} {s s' : Socket}
    {steps : List Carried} {p : Poller} (run : OverSocket s (session.run wakes) steps p s') :
    ∃ handled last session₁ s₁, steps = handled.flatMap Handled.steps ++ last ∧
      session.Handles s handled session₁ s₁ ∧
      handled.map (fun h => (h.now, h.wake)) = wakes.takeWhile goesOn ∧
      OverSocket s₁ session₁.poller.shutdown last p s' := by
  induction wakes generalizing session s steps with
  | nil => exact ⟨[], steps, session, s, rfl, .done session s, rfl, run⟩
  | cons first rest ih =>
    obtain ⟨now, wake⟩ := first
    unfold Session.run at run
    cases hhandle : session.handle now wake with
    | none =>
      rw [hhandle] at run
      have hstop := handle_eq_none_iff.mp hhandle
      exact ⟨[], steps, session, s, rfl, .done session s, by simp [goesOn, hstop], run⟩
    | some action =>
      rw [hhandle] at run
      obtain ⟨now_steps, more, session₁, s₁, rfl, hfirst, hmore⟩ := OverSocket.bind_iff.mp run
      obtain ⟨handled, last, session₂, s₂, rfl, hhandles, hwakes, hlast⟩ := ih hmore
      have hgoes : goesOn (now, wake) = true := by
        have hwake : wake ≠ .command .shutdown := by
          intro hstop
          rw [handle_eq_none_iff.mpr hstop] at hhandle
          cases hhandle
        simpa [goesOn] using hwake
      refine ⟨⟨now, wake, now_steps⟩ :: handled, last, session₂, s₂, by simp,
        .wake hhandle hfirst hhandles, ?_, hlast⟩
      rw [List.map_cons, hwakes, List.takeWhile_cons, if_pos hgoes]

theorem closes_run {session : Session} {wakes : List (Nat × Wake)} {s s' : Socket}
    {steps : List Carried} {p : Poller} (run : OverSocket s (session.run wakes) steps p s') :
    ∃ handled last session₁ s₁, session.Closes s wakes steps p s' handled last session₁ s₁ := by
  obtain ⟨handled, last, session₁, s₁, hparts, hhandles, hwakes, hlast⟩ := handles_run run
  refine ⟨handled, last, session₁, s₁, {
    parts := hparts
    handles := hhandles
    wakes_eq := hwakes
    commands_eq := ?_
    shutsDown := Poller.shutsDown hlast }⟩
  rw [← commands_takeWhile, ← hwakes, List.filterMap_map]
  rfl

end Session

end Overseer
