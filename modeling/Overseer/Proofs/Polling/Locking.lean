import Overseer.Proofs.Polling.Views

/-!
What deriving the power locks does.

Each lock ends in the wanted state unless its own backend call failed, and then it stays as it was
(`apply_ensures`). Deriving the locks from a status moves the locks and the computing flag, and asks
the worker nothing (`applyLocks_ensures`).
-/

namespace Overseer

open Program

/-! ### Locks -/

/-- Only the backend of this lock is called. -/
def OnlyCalls (lock : PowerLock) (trace : List (Exchange Effects)) : Prop :=
  ∀ e ∈ trace, ∃ acquire, e.op = .lock ⟨lock, acquire⟩

/-- The recorded state of one lock. -/
def PowerLocks.held (locks : PowerLocks) : PowerLock → Bool
  | .wake => locks.wake
  | .network => locks.network

theorem PowerLocks.eq_of_held {locks locks' : PowerLocks}
    (h : ∀ lock, locks.held lock = locks'.held lock) : locks = locks' := by
  obtain ⟨wake, network⟩ := locks
  obtain rfl : wake = locks'.wake := h .wake
  obtain rfl : network = locks'.network := h .network
  rfl

section OnlyCalls

variable {lock : PowerLock} {trace : List (Exchange Effects)}

theorem OnlyCalls.channelled_eq_nil (h : OnlyCalls lock trace) : channelled trace = [] := by
  refine List.filterMap_eq_nil_iff.mpr fun e he => ?_
  obtain ⟨acquire, hop⟩ := h e he
  obtain ⟨op, answer⟩ := e
  cases hop
  rfl

theorem OnlyCalls.posts_eq_nil (h : OnlyCalls lock trace) : posts trace = [] := by
  refine List.filterMap_eq_nil_iff.mpr fun e he => ?_
  obtain ⟨acquire, hop⟩ := h e he
  obtain ⟨op, answer⟩ := e
  cases hop
  rfl

theorem OnlyCalls.not_lockFailed {other : PowerLock} (h : OnlyCalls lock trace)
    (hother : lock ≠ other) : lockFailed other trace = false := by
  refine List.any_eq_false.mpr ?_
  rintro ⟨call, succeeded⟩ hmem
  obtain ⟨⟨op, answer⟩, he, heq⟩ := List.mem_filterMap.mp hmem
  obtain ⟨acquire, hop⟩ := h _ he
  cases hop
  cases heq
  simp [hother]

end OnlyCalls

/-- One lock ends in the wanted state unless its backend call failed. -/
theorem PowerLock.set_ensures (lock : PowerLock) (held wanted : Bool) :
    Ensures (Action.locks (lock.set held wanted)) fun trace held' =>
      OnlyCalls lock trace ∧ held' = if lockFailed lock trace then held else wanted := by
  unfold PowerLock.set
  by_cases h : wanted = held
  · rw [if_pos h]
    exact Ensures.done ⟨by simp [OnlyCalls], h.symm⟩
  · rw [if_neg h]
    refine Ensures.question fun succeeded => Ensures.done ⟨?_, ?_⟩
    · intro e he
      cases List.mem_singleton.mp he
      exact ⟨wanted, rfl⟩
    · cases succeeded <;> simp [lockFailed, lockCalls]

/-- Either lock ends in the wanted state unless its own backend call failed. -/
theorem PowerLocks.apply_ensures (locks : PowerLocks) (wanted : Bool) :
    Ensures (Action.locks (locks.apply wanted)) fun trace locks' =>
      channelled trace = [] ∧ posts trace = [] ∧
        ∀ lock, locks'.held lock = if lockFailed lock trace then locks.held lock else wanted := by
  unfold PowerLocks.apply Action.locks
  rw [interpret_bind]
  refine Ensures.bind (PowerLock.network.set_ensures locks.network wanted) ?_
  rintro first network ⟨hfirst, hnetwork⟩
  rw [interpret_bind]
  refine Ensures.bind (PowerLock.wake.set_ensures locks.wake wanted) ?_
  rintro second wake ⟨hsecond, hwake⟩
  refine Ensures.done ⟨?_, ?_, ?_⟩
  · simp [hfirst.channelled_eq_nil, hsecond.channelled_eq_nil]
  · simp [hfirst.posts_eq_nil, hsecond.posts_eq_nil]
  · intro lock
    cases lock with
    | wake =>
      have hother : lockFailed .wake first = false := hfirst.not_lockFailed (by decide)
      simpa [hother, PowerLocks.held] using hwake
    | network =>
      have hother : lockFailed .network second = false := hsecond.not_lockFailed (by decide)
      simpa [hother, PowerLocks.held] using hnetwork

/-- Deriving the locks changes nothing but them and the computing flag. -/
theorem Poller.applyLocks_ensures (p : Poller) (status : RunStatus) :
    Ensures (p.applyLocks status) fun trace p' =>
      let computing := status.taskSuspendReason.computing
      p' = { p with locks := p'.locks, status := { p.status with computing } } ∧
        channelled trace = [] ∧ posts trace = [.computing computing] ∧
        ∀ lock, p'.locks.held lock =
          if lockFailed lock trace then p.locks.held lock else computing := by
  refine Ensures.bind (p.locks.apply_ensures _) ?_
  rintro first locks ⟨hchannelled, hposts, hheld⟩
  refine Ensures.question fun _ => Ensures.done ⟨rfl, ?_, ?_, ?_⟩
  · rw [channelled_append, hchannelled]
    rfl
  · rw [posts_append, hposts]
    rfl
  · intro lock
    have hpost : lockFailed lock [⟨.post (.computing status.taskSuspendReason.computing), ()⟩]
        = false := rfl
    simpa [hpost] using hheld lock

end Overseer
