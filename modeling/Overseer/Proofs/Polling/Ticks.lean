import Overseer.Poller
import Overseer.Proofs.Conversations

/-!
What a tick is made of.

A tick looks at the connection, sets up if that is needed, and unless this fails it reports the
device and reads the worker, minimally or fully. `Ticked` says so once; what holds of every tick is
proved by its two cases, whatever the cadence chooses.
-/

namespace Overseer

open Program

namespace Poller

/-- A read of one kind. -/
def read (p : Poller) : ReadKind → Action (Except TickError Unit × Poller)
  | .minimal => p.minimalRead
  | .full => p.fullRead

/-- At most a look at the channel. -/
def Looks (trace : List (Exchange Effects)) : Prop := ∀ e ∈ trace, e.op = .channel .isAlive

/-- The device is reported, with whatever answer. -/
def Reports (trace : List (Exchange Effects)) : Prop :=
  ∃ power status reported, trace =
    [⟨.readPower, power⟩, ⟨.channel (.call (.reportDevice status)), reported⟩]

/-- The ways in which a tick goes, each with its outcome. -/
inductive Ticked (p : Poller) :
    List (Exchange Effects) → Except TickError TickOutcome → Poller → Prop where
  | unready {look setup p'} (looked : Looks look) (failed : Follows p.setUp setup (false, p')) :
      Ticked p (look ++ setup) (.ok .setupFailed) p'
  | alive {look report rest cadence kind result p'} (looked : Looks look)
      (reported : Reports report)
      (answered : Follows (read { p with cadence } kind) rest (result, p')) :
      Ticked p (look ++ (report ++ rest)) (result.map fun () => .read kind) p'
  | ready {look setup report rest q cadence kind result p'} (looked : Looks look)
      (prepared : Follows p.setUp setup (true, q)) (reported : Reports report)
      (answered : Follows (read { q with cadence } kind) rest (result, p')) :
      Ticked p (look ++ (setup ++ (report ++ rest))) (result.map fun () => .read kind) p'

theorem isAlive_ensures (c : Connection) : Ensures c.isAlive fun trace _ => Looks trace := by
  unfold Connection.isAlive
  split
  · exact Ensures.question fun alive => Ensures.done (by simp [Looks])
  · exact Ensures.done (by simp [Looks])

/-- A read of one kind, with the outcome of its tick. -/
def readFor (p : Poller) (kind : ReadKind) : Action (Except TickError TickOutcome × Poller) := do
  let (result, p) ← p.read kind
  return (result.map fun () => .read kind, p)

/-- The cadence chooses the kind of the read, and nothing else about it. -/
theorem poll_eq (p : Poller) (force : Bool) :
    p.poll force = Action.readPower >>= fun power =>
      Action.request (.reportDevice (.of p.cadence.screenOn power)) >>= fun report =>
        let next := p.cadence.next force
        readFor { p with cadence := if report.isOk then next.2.reported next.1 else next.2 }
          next.1 := by
  unfold poll
  congr 1
  funext power
  congr 1
  funext report
  generalize p.cadence.next force = next
  obtain ⟨kind, cadence⟩ := next
  cases kind with
  | minimal => rfl
  | full => rfl

theorem readFor_ensures (p : Poller) (kind : ReadKind) :
    Ensures (p.readFor kind) fun rest (outcome, p') =>
      ∃ result, outcome = result.map (fun () => .read kind) ∧
        Follows (p.read kind) rest (result, p') := by
  refine Ensures.bind (.self (p.read kind)) ?_
  rintro rest ⟨result, p'⟩ hfollows
  refine Ensures.done ⟨result, rfl, ?_⟩
  rw [List.append_nil]
  exact hfollows

theorem poll_ensures (p : Poller) (force : Bool) :
    Ensures (p.poll force) fun trace (outcome, p') =>
      ∃ report rest cadence kind result, trace = report ++ rest ∧ Reports report ∧
        outcome = result.map (fun () => .read kind) ∧
        Follows (read { p with cadence } kind) rest (result, p') := by
  rw [poll_eq]
  apply Ensures.question
  intro power
  apply Ensures.question
  intro reported
  refine (readFor_ensures _ _).mono ?_
  rintro rest ⟨outcome, p'⟩ ⟨result, houtcome, hfollows⟩
  exact ⟨[_, _], rest, _, _, result, rfl, ⟨power, _, reported, rfl⟩, houtcome, hfollows⟩

/-- Every tick goes one of these ways. -/
theorem tick_ensures (p : Poller) (force : Bool) :
    Ensures (p.tick force) fun trace (outcome, p') => p.Ticked trace outcome p' := by
  refine Ensures.bind (isAlive_ensures p.connection) fun look alive looked => ?_
  cases alive with
  | true =>
    refine (p.poll_ensures force).mono ?_
    rintro trace ⟨_, p'⟩ ⟨report, rest, cadence, kind, result, rfl, reported, rfl, answered⟩
    exact .alive looked reported answered
  | false =>
    refine Ensures.bind (.self p.setUp) ?_
    rintro setup ⟨ok, q⟩ prepared
    cases ok with
    | false =>
      refine Ensures.done ?_
      rw [List.append_nil]
      exact .unready looked prepared
    | true =>
      refine (q.poll_ensures true).mono ?_
      rintro trace ⟨_, p'⟩ ⟨report, rest, cadence, kind, result, rfl, reported, rfl, answered⟩
      exact .ready looked prepared reported answered

/-- The poller after its settings may have been changed. -/
inductive Retuned (p : Poller) : Poller → Prop where
  | same : Retuned p p
  | screen (on : Bool) : Retuned p (p.setScreen on)
  | settings (polling : Config.Polling) : Retuned p (p.reconfigure polling).2

/-- Settings decide when and how much is read, and change nothing that was read. -/
theorem Retuned.frame {p q : Poller} (h : p.Retuned q) :
    q.status = p.status ∧ q.locks = p.locks := by
  cases h with
  | same => exact ⟨rfl, rfl⟩
  | screen on => exact ⟨rfl, rfl⟩
  | settings polling =>
    unfold reconfigure
    dsimp only
    split
    · exact ⟨rfl, rfl⟩
    · exact ⟨rfl, rfl⟩

theorem Retuned.connection_eq {p q : Poller} (h : p.Retuned q) : q.connection = p.connection := by
  cases h with
  | same => rfl
  | screen on => rfl
  | settings polling =>
    unfold reconfigure
    dsimp only
    split <;> rfl

end Poller

namespace Session

/-- What a poller does when it wakes up: its settings may change, and then it may tick. -/
def Woken (s : Session) (trace : List (Exchange Effects)) (s' : Session) : Prop :=
  ∃ q, s.poller.Retuned q ∧
    ((trace = [] ∧ s'.poller = q) ∨ ∃ outcome, q.Ticked trace outcome s'.poller)

theorem tick_ensures (s : Session) (force : Bool) :
    Ensures (s.tick force) fun trace s' => ∃ outcome, s.poller.Ticked trace outcome s'.poller := by
  refine Ensures.bind (s.poller.tick_ensures force) ?_
  rintro trace ⟨outcome, p'⟩ hticked
  refine Ensures.done ⟨outcome, ?_⟩
  rw [List.append_nil]
  exact hticked

theorem handle_ensures {s : Session} {now : Nat} {wake : Wake} {action : Action Session}
    (h : s.handle now wake = some action) : Ensures action fun trace s' => s.Woken trace s' := by
  cases wake with
  | tick =>
    cases h
    exact (tick_ensures _ false).mono fun _ _ hticked => ⟨_, .same, .inr hticked⟩
  | command command =>
    cases command with
    | forceRefresh =>
      cases h
      exact (s.tick_ensures true).mono fun _ _ hticked => ⟨_, .same, .inr hticked⟩
    | displayChanged on =>
      cases h
      cases on with
      | true =>
        exact (tick_ensures _ true).mono fun _ _ hticked => ⟨_, .screen true, .inr hticked⟩
      | false => exact Ensures.done ⟨_, .screen false, .inl ⟨rfl, rfl⟩⟩
    | reconfigure polling =>
      unfold handle at h
      have hretuned : s.poller.Retuned (s.poller.reconfigure polling).2 := .settings polling
      cases hreconfigure : s.poller.reconfigure polling with
      | mk period? poller =>
        rw [hreconfigure] at hretuned
        simp only [hreconfigure] at h
        cases period? with
        | none =>
          cases h
          exact Ensures.done ⟨poller, hretuned, .inl ⟨rfl, rfl⟩⟩
        | some period =>
          cases h
          exact Ensures.done ⟨poller, hretuned, .inl ⟨rfl, rfl⟩⟩
    | shutdown => cases h

/-- The states of a session after so many wakes, with all that was exchanged. -/
inductive Runs (s : Session) : List (Exchange Effects) → Session → Prop where
  | start : Runs s [] s
  | wake {s' s'' trace more now wake action} (run : Runs s trace s')
      (handled : s'.handle now wake = some action) (followed : Follows action more s'') :
      Runs s (trace ++ more) s''

/-- What every wake preserves holds after a run. -/
theorem Runs.invariant {s s' : Session} {trace : List (Exchange Effects)}
    (run : s.Runs trace s') (inv : List (Exchange Effects) → Session → Prop) (start : inv [] s)
    (step : ∀ {past s more s'}, inv past s → s.Woken more s' → inv (past ++ more) s') :
    inv trace s' := by
  induction run with
  | start => exact start
  | wake run handled followed ih => exact step ih (handle_ensures handled followed)

theorem Runs.trans {s s' s'' : Session} {first second : List (Exchange Effects)}
    (h : s.Runs first s') (h' : s'.Runs second s'') : s.Runs (first ++ second) s'' := by
  induction h' with
  | start => rwa [List.append_nil]
  | wake run handled followed ih =>
    rw [← List.append_assoc]
    exact .wake ih handled followed

/-- A session handles wakes, and then it shuts down. -/
theorem run_ensures (s : Session) (wakes : List (Nat × Wake)) :
    Ensures (s.run wakes) fun trace p =>
      ∃ first last s', trace = first ++ last ∧ s.Runs first s' ∧
        Follows s'.poller.shutdown last p := by
  induction wakes generalizing s with
  | nil =>
    intro trace p hfollows
    exact ⟨[], trace, s, rfl, .start, hfollows⟩
  | cons wake rest ih =>
    obtain ⟨now, wake⟩ := wake
    unfold run
    cases hhandle : s.handle now wake with
    | none =>
      intro trace p hfollows
      exact ⟨[], trace, s, rfl, .start, hfollows⟩
    | some action =>
      refine Ensures.bind (.self action) fun first s₁ hfirst => (ih s₁).mono ?_
      rintro trace p ⟨middle, last, s', rfl, hruns, hshutdown⟩
      have hwake : s.Runs first s₁ := .wake .start hhandle hfirst
      exact ⟨first ++ middle, last, s', by simp, hwake.trans hruns, hshutdown⟩

end Session

end Overseer
