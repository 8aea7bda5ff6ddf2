import Overseer.Proofs.Line.Liveness
import Overseer.Proofs.Line.Upkeep
import Overseer.Proofs.Polling.Locking

/-!
What a shutdown does.

It closes the channel, and then calls the backend of each lock that is held exactly once, to release
it (`PowerLocks.apply_calls`). It does nothing else, whatever state it finds
(`Poller.shutdown_asks`, `Poller.shutsDown`).
-/

namespace Overseer

open Program

/-! ### The calls of one lock -/

/-- The calls of one lock's backend, in order, each with whether it succeeded. -/
def callsOf (lock : PowerLock) (trace : List (Exchange Effects)) : List (LockCall × Bool) :=
  (lockCalls trace).filter fun (call, _) => call.lock = lock

@[simp] theorem callsOf_append (lock : PowerLock) (first second : List (Exchange Effects)) :
    callsOf lock (first ++ second) = callsOf lock first ++ callsOf lock second := by
  simp [callsOf]

/-- What one lock is asked on its way to a wanted state: nothing if it is there already, and
otherwise one call, which decides whether it gets there. -/
structure PowerLock.Moves (lock : PowerLock) (wanted held held' : Bool)
    (calls : List (LockCall × Bool)) : Prop where
  stays : wanted = held → calls = [] ∧ held' = wanted
  called : wanted ≠ held → calls = [(⟨lock, wanted⟩, held' == wanted)]

/-- Bringing one lock to a wanted state asks for nothing but this. -/
theorem PowerLock.set_moves (lock : PowerLock) (held wanted : Bool) :
    Ensures (Action.locks (lock.set held wanted)) fun trace held' =>
      (∀ e ∈ trace, e.op = .lock ⟨lock, wanted⟩) ∧
        lock.Moves wanted held held' (lockCalls trace) := by
  unfold PowerLock.set
  by_cases hsame : wanted = held
  · rw [if_pos hsame]
    apply Ensures.done
    constructor
    · intro e he
      cases he
    · exact ⟨fun _ => ⟨rfl, hsame.symm⟩, fun hne => absurd hsame hne⟩
  · rw [if_neg hsame]
    apply Ensures.question
    intro succeeded
    apply Ensures.done
    constructor
    · intro e he
      cases List.mem_singleton.mp he
      rfl
    · constructor
      · intro heq
        exact absurd heq hsame
      · intro _
        have hother : (held == wanted) = false := by simpa using Ne.symm hsame
        cases succeeded <;> simp [lockCalls, hother]

theorem callsOf_eq_lockCalls {lock : PowerLock} {acquire : Bool}
    {trace : List (Exchange Effects)} (h : ∀ e ∈ trace, e.op = .lock ⟨lock, acquire⟩) :
    callsOf lock trace = lockCalls trace := by
  apply List.filter_eq_self.mpr
  rintro ⟨call, succeeded⟩ hmem
  obtain ⟨⟨op, answer⟩, he, heq⟩ := List.mem_filterMap.mp hmem
  cases h _ he
  cases heq
  simp

theorem callsOf_eq_nil {lock other : PowerLock} {acquire : Bool} (hne : lock ≠ other)
    {trace : List (Exchange Effects)} (h : ∀ e ∈ trace, e.op = .lock ⟨lock, acquire⟩) :
    callsOf other trace = [] := by
  apply List.filter_eq_nil_iff.mpr
  rintro ⟨call, succeeded⟩ hmem
  obtain ⟨⟨op, answer⟩, he, heq⟩ := List.mem_filterMap.mp hmem
  cases h _ he
  cases heq
  simpa using hne

/-- Moving both locks to a wanted state asks each for what it needs to get there. -/
theorem PowerLocks.apply_moves (locks : PowerLocks) (wanted : Bool) :
    Ensures (Action.locks (locks.apply wanted)) fun trace locks' =>
      (∀ e ∈ trace, ∃ lock, e.op = .lock ⟨lock, wanted⟩) ∧
        ∀ lock : PowerLock,
          lock.Moves wanted (locks.held lock) (locks'.held lock) (callsOf lock trace) := by
  unfold PowerLocks.apply Action.locks
  rw [interpret_bind]
  refine Ensures.bind (PowerLock.network.set_moves locks.network wanted) ?_
  rintro first network ⟨hfirst, hnetwork⟩
  rw [interpret_bind]
  refine Ensures.bind (PowerLock.wake.set_moves locks.wake wanted) ?_
  rintro second wake ⟨hsecond, hwake⟩
  apply Ensures.done
  rw [List.append_nil]
  constructor
  · intro e he
    rcases List.mem_append.mp he with he | he
    · exact ⟨.network, hfirst e he⟩
    · exact ⟨.wake, hsecond e he⟩
  · intro lock
    cases lock with
    | wake =>
      rw [callsOf_append, callsOf_eq_nil (by decide) hfirst, callsOf_eq_lockCalls hsecond]
      exact hwake
    | network =>
      rw [callsOf_append, callsOf_eq_lockCalls hfirst, callsOf_eq_nil (by decide) hsecond,
        List.append_nil]
      exact hnetwork

/-! ### Shutting down -/

/-- The effects of a shutdown: the channel is closed, and locks are released. -/
def Effect.Releases (effect : Effect) : Prop :=
  effect = .channel .close ∨ ∃ lock, effect = .lock ⟨lock, false⟩

namespace Poller

/-- A shutdown sends nothing, starts and stops no process, tells observers nothing and acquires no
lock. -/
theorem shutdown_asks (p : Poller) : Asks Effect.Releases p.shutdown := by
  apply Asks.bind
  · exact Asks.question (.inl rfl) fun _ => Asks.done _
  intro connection
  apply Asks.bind
  · exact (p.locks.apply_moves false).mono fun trace _ h e he => .inr (h.1 e he)
  · exact fun _ => Asks.done _

/-- What a shutdown over a socket comes to. -/
structure ShutsDown (p : Poller) (s : Socket) (steps : List Carried) (p' : Poller) (s' : Socket) :
    Prop where
  asks : ∀ c ∈ steps, c.exchange.op.Releases
  /-- Nothing is written on any stream, and none is opened. -/
  unwritten : ∀ c ∈ steps, writes c.streams = [] ∧ opened? c.streams = none
  /-- The stream is closed, if there is one. -/
  closes : steps.flatMap (fun c => closes c.streams) = s.stream.toList
  closed : s'.stream = none
  dead : ¬p'.connection.AliveOver s'
  untold : posts (steps.map Carried.exchange) = []
  status : p'.status = p.status
  /-- A lock that is held is released by exactly one call, unless that fails; -/
  released : ∀ lock, p.locks.held lock = true →
    callsOf lock (steps.map Carried.exchange) = [(⟨lock, false⟩, !p'.locks.held lock)]
  /-- any other one is left alone. -/
  unheld : ∀ lock, p.locks.held lock = false →
    callsOf lock (steps.map Carried.exchange) = [] ∧ p'.locks.held lock = false

end Poller

/-- Closing the channel over a socket. -/
theorem overSocket_close {s s' : Socket} {steps : List Carried} {u : Unit}
    (run : OverSocket s (Action.channel .close) steps u s') :
    s'.stream = none ∧ ∃ streams, steps = [⟨⟨.channel .close, ()⟩, streams⟩] ∧
      writes streams = [] ∧ opened? streams = none ∧ closes streams = s.stream.toList := by
  cases run with
  | ask step rest =>
    cases rest
    cases step with
    | beside h => exact absurd rfl (h _)
    | channel hperform =>
      have hclose : Ensures (s.perform .close) fun streams (_, s') => s'.stream = none ∧
          writes streams = [] ∧ opened? streams = none ∧ closes streams = s.stream.toList := by
        refine Ensures.bind s.drop_ensures fun streams s' hdrop => Ensures.done ?_
        rw [List.append_nil]
        exact hdrop
      obtain ⟨hnone, hstreams⟩ := hclose hperform
      exact ⟨hnone, _, rfl, hstreams⟩

theorem OverSocket.streams_eq_nil {α : Type} {action : Action α} {s s' : Socket}
    {steps : List Carried} {a : α} (run : OverSocket s action steps a s')
    (quiet : ∀ c ∈ steps, c.exchange.op.Quiet) : ∀ c ∈ steps, c.streams = [] := by
  induction run with
  | done s a =>
    intro c hc
    cases hc
  | ask step rest ih =>
    obtain ⟨hfirst, hrest⟩ := List.forall_mem_cons.mp quiet
    exact List.forall_mem_cons.mpr ⟨(step.quiet hfirst).1, ih hrest⟩

theorem posts_eq_nil_of_releases {trace : List (Exchange Effects)}
    (h : ∀ e ∈ trace, e.op.Releases) : posts trace = [] := by
  apply List.filterMap_eq_nil_iff.mpr
  rintro ⟨op, answer⟩ he
  rcases h _ he with hop | ⟨lock, hop⟩
  · cases hop
    rfl
  · cases hop
    rfl

namespace Poller

/-- A shutdown over a socket: the channel is closed, and all the rest concerns the locks. -/
theorem overSocket_shutdown {p p' : Poller} {s s' : Socket} {steps : List Carried}
    (run : OverSocket s p.shutdown steps p' s') :
    ∃ streams releasing, steps = ⟨⟨.channel .close, ()⟩, streams⟩ :: releasing ∧
      (writes streams = [] ∧ opened? streams = none ∧ closes streams = s.stream.toList) ∧
      s'.stream = none ∧ p'.status = p.status ∧ (∀ c ∈ releasing, c.streams = []) ∧
      OverSocket s' (Action.locks p.locks.releaseAll) releasing p'.locks s' := by
  obtain ⟨closing, rest, connection, s₁, rfl, hclose, hrest⟩ := OverSocket.bind_iff.mp run
  obtain ⟨releasing, last, locks, s₂, rfl, hrelease, hlast⟩ := OverSocket.bind_iff.mp hrest
  cases hlast
  obtain ⟨first, second, u, s₃, rfl, hfirst, hsecond⟩ := OverSocket.bind_iff.mp hclose
  cases hsecond
  obtain ⟨hnone, streams, rfl, hstreams⟩ := overSocket_close hfirst
  have hquiet : ∀ c ∈ releasing, c.exchange.op.Quiet := fun c hc =>
    quiet_locks p.locks.releaseAll hrelease.follows c.exchange (List.mem_map_of_mem hc)
  have hsocket : s' = s₁ := hrelease.socket_eq hquiet
  subst hsocket
  refine ⟨streams, releasing, ?_, hstreams, hnone, rfl, hrelease.streams_eq_nil hquiet, hrelease⟩
  simp

theorem shutsDown {p p' : Poller} {s s' : Socket} {steps : List Carried}
    (run : OverSocket s p.shutdown steps p' s') : p.ShutsDown s steps p' s' := by
  have hasks : ∀ c ∈ steps, c.exchange.op.Releases := fun c hc =>
    p.shutdown_asks run.follows c.exchange (List.mem_map_of_mem hc)
  obtain ⟨streams, releasing, rfl, ⟨hwrites, hopened, hcloses⟩, hnone, hstatus, hstreams,
    hrelease⟩ := overSocket_shutdown run
  obtain ⟨-, hmoves⟩ := p.locks.apply_moves false hrelease.follows
  exact {
    asks := hasks
    unwritten := by
      intro c hc
      rcases List.mem_cons.mp hc with rfl | hc
      · exact ⟨hwrites, hopened⟩
      · rw [hstreams c hc]
        exact ⟨rfl, rfl⟩
    closes := by
      have hrest : releasing.flatMap (fun c => closes c.streams) = [] := by
        apply List.flatMap_eq_nil_iff.mpr
        intro c hc
        rw [hstreams c hc]
        rfl
      simp [hcloses, hrest]
    closed := hnone
    dead := Connection.not_aliveOver_of_stream hnone
    untold := by
      apply posts_eq_nil_of_releases
      intro e he
      obtain ⟨c, hc, rfl⟩ := List.mem_map.mp he
      exact hasks c hc
    status := hstatus
    released := by
      intro lock hheld
      have hcalled := (hmoves lock).called (by simp [hheld])
      cases hafter : p'.locks.held lock <;> rw [hafter] at hcalled <;> exact hcalled
    unheld := by
      intro lock hheld
      exact (hmoves lock).stays hheld.symm }

end Poller

end Overseer
