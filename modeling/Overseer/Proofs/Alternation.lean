import Overseer.Proofs.Shutdown.Releasing
import Overseer.Proofs.Throughout

/-!
The calls of the power locks, request after request.

A turn is one request: both recorded states before it, the calls of the backends with their
outcomes, and both recorded states after it. What a lock does in a turn depends on its own record
and the outcome of its own call only (`LockTurn.Right`), whatever the backends make of their calls
(`PowerLocks.Turns`). So the successful calls of either lock alternate, the record tells of the last
one, and the other lock has no part in it (`locks_alternate`).
-/

namespace Overseer

open Program

/-- What both locks are asked for. -/
inductive LockRequest where
  | apply (computing : Bool)
  | releaseAll
deriving DecidableEq, Repr

namespace LockRequest

/-- The state that is asked for. -/
def wanted : LockRequest → Bool
  | apply computing => computing
  | releaseAll => false

def carryOut (locks : PowerLocks) : LockRequest → Program LockBackends PowerLocks
  | apply computing => locks.apply computing
  | releaseAll => locks.releaseAll

theorem carryOut_eq (locks : PowerLocks) (request : LockRequest) :
    request.carryOut locks = locks.apply request.wanted := by
  cases request with
  | apply computing => rfl
  | releaseAll => rfl

end LockRequest

/-- One request and what became of it. -/
structure LockTurn where
  request : LockRequest
  before : PowerLocks
  trace : List (Exchange Effects)
  after : PowerLocks

/-- The states of the locks under so many requests. The backends answer as they like. -/
inductive PowerLocks.Turns (locks : PowerLocks) : List LockTurn → PowerLocks → Prop where
  | start : locks.Turns [] locks
  | turn {turns now request trace later} (run : locks.Turns turns now)
      (carried : Follows (Action.locks (LockRequest.carryOut now request)) trace later) :
      locks.Turns (turns ++ [⟨request, now, trace, later⟩]) later

namespace LockTurn

/-- The calls of one lock's backend, each with whether it succeeded. -/
def calls (lock : PowerLock) (t : LockTurn) : List (LockCall × Bool) := callsOf lock t.trace

/-- What one lock does in a turn. -/
structure Right (lock : PowerLock) (t : LockTurn) : Prop where
  /-- A call is made exactly if the state asked for is not the recorded one. -/
  called_iff : t.calls lock ≠ [] ↔ t.request.wanted ≠ t.before.held lock
  /-- It is the only one, it is for the state asked for, and it counts if it succeeds. -/
  counts : ∀ call succeeded, (call, succeeded) ∈ t.calls lock →
    t.calls lock = [(call, succeeded)] ∧ call = ⟨lock, t.request.wanted⟩ ∧
      t.after.held lock = if succeeded then t.request.wanted else t.before.held lock
  /-- Nothing else changes the record. -/
  kept : t.calls lock = [] → t.after.held lock = t.before.held lock

theorem Right.of_moves {lock : PowerLock} {t : LockTurn}
    (h : lock.Moves t.request.wanted (t.before.held lock) (t.after.held lock) (t.calls lock)) :
    t.Right lock := by
  by_cases hsame : t.request.wanted = t.before.held lock
  · obtain ⟨hnone, hafter⟩ := h.stays hsame
    refine ⟨by simp [hnone, hsame], ?_, fun _ => hafter.trans hsame⟩
    intro call succeeded hcall
    rw [hnone] at hcall
    cases hcall
  · have hcalled := h.called hsame
    refine ⟨by simp [hcalled, hsame], ?_, fun hnone => ?_⟩
    · intro call succeeded hcall
      rw [hcalled, List.mem_singleton, Prod.mk.injEq] at hcall
      obtain ⟨rfl, rfl⟩ := hcall
      refine ⟨hcalled, rfl, ?_⟩
      by_cases hafter : t.after.held lock = t.request.wanted
      · simp [hafter]
      · simpa [hafter] using (Bool.eq_not.mpr hafter).trans (Bool.eq_not.mpr (Ne.symm hsame)).symm
    · rw [hcalled] at hnone
      cases hnone

end LockTurn

/-! ### Runs -/

/-- The calls of one lock over some turns. -/
def LockTurn.callsIn (lock : PowerLock) (turns : List LockTurn) : List (LockCall × Bool) :=
  turns.flatMap (calls lock)

/-- The successful ones among some calls, each an acquisition or a release. -/
def LockCall.successes (calls : List (LockCall × Bool)) : List Bool :=
  calls.filterMap fun (call, succeeded) => if succeeded then some call.acquire else none

theorem LockCall.successes_concat (lock : PowerLock) (turns : List LockTurn) (t : LockTurn) :
    successes (LockTurn.callsIn lock (turns ++ [t])) =
      successes (LockTurn.callsIn lock turns) ++ successes (t.calls lock) := by
  simp [successes, LockTurn.callsIn]

/-- A lock keeps its discipline over some turns. -/
structure PowerLock.Disciplined (lock : PowerLock) (turns : List LockTurn) (last : PowerLocks) :
    Prop where
  /-- The first successful call acquires, -/
  starts : (LockCall.successes (LockTurn.callsIn lock turns)).head? ≠ some false
  /-- and from then on releases and acquisitions alternate. -/
  alternates : (LockCall.successes (LockTurn.callsIn lock turns)).IsChain (· ≠ ·)
  /-- The lock is recorded as held exactly if its last successful call acquired it. -/
  held_iff : last.held lock = true ↔
    (LockCall.successes (LockTurn.callsIn lock turns)).getLast? = some true
  right : ∀ t ∈ turns, t.Right lock
  /-- A call that failed is made again by the next request if that asks for the same state, and is
  not made if it asks for the old one. -/
  retried : ∀ before t t' after call, turns = before ++ t :: t' :: after →
    (call, false) ∈ t.calls lock →
      t'.before.held lock = t.before.held lock ∧
        (t'.request.wanted = t.request.wanted → ∃ succeeded, t'.calls lock = [(call, succeeded)]) ∧
        (t'.request.wanted = t.before.held lock →
          t'.calls lock = [] ∧ t'.after.held lock = t.before.held lock)

/-- What one lock's backend makes of a call, by the number of requests and its own calls before. -/
@[reducible] def LockBackend : Type := Nat → List (LockCall × Bool) → LockCall → Bool

/-- The calls of one lock were answered by this backend. -/
def PowerLock.AnsweredBy (lock : PowerLock) (backend : LockBackend) : List LockTurn → Prop :=
  Throughout fun before t => ∀ call succeeded, (call, succeeded) ∈ t.calls lock →
    succeeded = backend before.length (LockTurn.callsIn lock before) call

namespace LockTurn.Right

variable {lock : PowerLock} {t t' : LockTurn}

theorem calls_eq_nil (right : t.Right lock) (h : t.request.wanted = t.before.held lock) :
    t.calls lock = [] :=
  by_contra fun hne => right.called_iff.mp hne h

theorem exists_call (right : t.Right lock) (h : t.request.wanted ≠ t.before.held lock) :
    ∃ succeeded, t.calls lock = [(⟨lock, t.request.wanted⟩, succeeded)] := by
  obtain ⟨⟨call, succeeded⟩, hcall⟩ := List.exists_mem_of_ne_nil _ (right.called_iff.mpr h)
  obtain ⟨hcalls, rfl, -⟩ := right.counts call succeeded hcall
  exact ⟨succeeded, hcalls⟩

/-- A turn in which nothing succeeds keeps the record, and any other one acquires what was not held
or releases what was. -/
theorem cases (right : t.Right lock) :
    (LockCall.successes (t.calls lock) = [] ∧ t.after.held lock = t.before.held lock) ∨
      (LockCall.successes (t.calls lock) = [t.after.held lock] ∧
        t.after.held lock ≠ t.before.held lock) := by
  by_cases hsame : t.request.wanted = t.before.held lock
  · have hnone := right.calls_eq_nil hsame
    exact .inl ⟨by rw [hnone]; rfl, right.kept hnone⟩
  · obtain ⟨succeeded, hcalls⟩ := right.exists_call hsame
    obtain ⟨-, -, hafter⟩ := right.counts _ succeeded (hcalls ▸ List.mem_singleton_self _)
    cases succeeded with
    | false => exact .inl ⟨by rw [hcalls]; rfl, hafter⟩
    | true =>
      rw [if_pos rfl] at hafter
      exact .inr ⟨by rw [hcalls, hafter]; rfl, hafter ▸ hsame⟩

/-- After a call that failed, the next request decides what becomes of it. -/
theorem retried {call : LockCall} (right : t.Right lock) (right' : t'.Right lock)
    (linked : t'.before = t.after) (failed : (call, false) ∈ t.calls lock) :
    t'.before.held lock = t.before.held lock ∧
      (t'.request.wanted = t.request.wanted → ∃ succeeded, t'.calls lock = [(call, succeeded)]) ∧
      (t'.request.wanted = t.before.held lock →
        t'.calls lock = [] ∧ t'.after.held lock = t.before.held lock) := by
  have hasked := right.called_iff.mp (List.ne_nil_of_mem failed)
  obtain ⟨-, rfl, hafter⟩ := right.counts call false failed
  have hheld : t'.before.held lock = t.before.held lock := by
    rw [linked]
    exact hafter
  refine ⟨hheld, fun hagain => ?_, fun hold => ?_⟩
  · obtain ⟨succeeded, hcalls⟩ := right'.exists_call (by rwa [hagain, hheld])
    exact ⟨succeeded, hagain ▸ hcalls⟩
  · have hnone := right'.calls_eq_nil (hold.trans hheld.symm)
    exact ⟨hnone, (right'.kept hnone).trans hheld⟩

/-- What a lock does follows from the request, its record and the outcome of its own call. -/
theorem alike (right : t.Right lock) (right' : t'.Right lock)
    (request : t'.request = t.request) (held : t'.before.held lock = t.before.held lock)
    (answered : ∀ call succeeded succeeded', (call, succeeded) ∈ t.calls lock →
      (call, succeeded') ∈ t'.calls lock → succeeded' = succeeded) :
    t'.calls lock = t.calls lock ∧ t'.after.held lock = t.after.held lock := by
  by_cases hsame : t.request.wanted = t.before.held lock
  · have hnone := right.calls_eq_nil hsame
    have hnone' := right'.calls_eq_nil (by rw [request, held, hsame])
    exact ⟨hnone'.trans hnone.symm, by rw [right.kept hnone, right'.kept hnone', held]⟩
  · obtain ⟨succeeded, hcalls⟩ := right.exists_call hsame
    obtain ⟨succeeded', hcalls'⟩ := right'.exists_call (by rwa [request, held])
    have hmem : (⟨lock, t.request.wanted⟩, succeeded) ∈ t.calls lock :=
      hcalls ▸ List.mem_singleton_self _
    have hmem' : (⟨lock, t.request.wanted⟩, succeeded') ∈ t'.calls lock := by
      rw [hcalls', request]
      exact List.mem_singleton_self _
    obtain rfl := answered _ _ _ hmem hmem'
    refine ⟨by rw [hcalls, hcalls', request], ?_⟩
    obtain ⟨-, -, hafter⟩ := right.counts _ _ hmem
    obtain ⟨-, -, hafter'⟩ := right'.counts _ _ hmem'
    rw [hafter, hafter', request, held]

end LockTurn.Right

namespace PowerLocks.Turns

variable {locks last last' : PowerLocks} {turns turns' : List LockTurn}

theorem right (run : locks.Turns turns last) (lock : PowerLock) :
    ∀ t ∈ turns, t.Right lock := by
  induction run with
  | start => nofun
  | @turn turns now request trace later run carried ih =>
    refine List.forall_mem_append.mpr ⟨ih, List.forall_mem_singleton.mpr (.of_moves ?_)⟩
    rw [request.carryOut_eq now] at carried
    exact (now.apply_moves request.wanted carried).2 lock

/-- A turn starts where the one before it ended. -/
theorem linked (run : locks.Turns turns last) :
    turns.IsChain (fun t t' => t'.before = t.after) ∧ ∀ t ∈ turns.getLast?, t.after = last := by
  induction run with
  | start => exact ⟨.nil, nofun⟩
  | turn run carried ih =>
    refine ⟨List.isChain_append.mpr ⟨ih.1, List.isChain_singleton _, ?_⟩, by simp⟩
    intro t ht t' ht'
    cases ht'
    exact (ih.2 t ht).symm

/-- The record is what the last successful call made it, and each of them changed it. -/
theorem alternates (run : locks.Turns turns last) (lock : PowerLock) :
    (locks.held lock :: LockCall.successes (LockTurn.callsIn lock turns)).IsChain (· ≠ ·) ∧
      last.held lock =
        (LockCall.successes (LockTurn.callsIn lock turns)).getLastD (locks.held lock) := by
  induction run with
  | start => exact ⟨List.isChain_singleton _, rfl⟩
  | @turn turns now request trace later run carried ih =>
    obtain ⟨hchain, hlast⟩ := ih
    have hturn := (Turns.turn run carried).right lock _ (List.mem_append_right _
      (List.mem_singleton_self _))
    rw [LockCall.successes_concat]
    rcases hturn.cases with ⟨hnone, hafter⟩ | ⟨hone, hafter⟩
    · rw [hnone, List.append_nil]
      exact ⟨hchain, hafter.trans hlast⟩
    · rw [hone]
      refine ⟨isChain_concat hchain ?_, by simp⟩
      rw [← hlast]
      exact hafter.symm

theorem of_nil (run : locks.Turns [] last) : last = locks := by
  generalize hnone : [] = none at run
  cases run with
  | start => rfl
  | turn => simp at hnone

theorem of_concat {t : LockTurn} (run : locks.Turns (turns ++ [t]) last) :
    locks.Turns turns t.before ∧ t.after = last := by
  generalize hall : turns ++ [t] = all at run
  cases run with
  | start => simp at hall
  | turn run carried =>
    obtain ⟨rfl, ht⟩ := List.append_inj' hall rfl
    cases List.singleton_inj.mp ht
    exact ⟨run, rfl⟩

/-- One lock goes through two runs alike if the requests and its own backend are the same. -/
theorem alike {lock : PowerLock} {backend : LockBackend} (run : locks.Turns turns last)
    (run' : locks.Turns turns' last')
    (requests : turns'.map LockTurn.request = turns.map LockTurn.request)
    (answered : lock.AnsweredBy backend turns) (answered' : lock.AnsweredBy backend turns') :
    turns'.map (LockTurn.calls lock) = turns.map (LockTurn.calls lock) ∧
      turns'.map (fun t => t.after.held lock) = turns.map (fun t => t.after.held lock) ∧
      last'.held lock = last.held lock := by
  induction turns using List.reverseRecOn generalizing turns' last last' with
  | nil =>
    obtain rfl := List.map_eq_nil_iff.mp requests
    rw [run.of_nil, run'.of_nil]
    exact ⟨rfl, rfl, rfl⟩
  | append_singleton turns t ih =>
    obtain ⟨turns', t', rfl⟩ : ∃ before t', turns' = before ++ [t'] := by
      refine (List.eq_nil_or_concat' turns').resolve_left ?_
      rintro rfl
      simp at requests
    rw [List.map_append, List.map_append] at requests
    obtain ⟨hrequests, hrequest⟩ := List.append_inj' requests rfl
    obtain ⟨hbefore, hanswer⟩ := throughout_concat.mp answered
    obtain ⟨hbefore', hanswer'⟩ := throughout_concat.mp answered'
    obtain ⟨hrun, hlast⟩ := run.of_concat
    obtain ⟨hrun', hlast'⟩ := run'.of_concat
    -- Up to here the lock was called alike, so its backend makes the same of the next call.
    obtain ⟨hcalls, hheld, hnow⟩ := ih hrun hrun' hrequests hbefore hbefore'
    have hlength : turns'.length = turns.length := by simpa using congrArg List.length hrequests
    have hpast : LockTurn.callsIn lock turns' = LockTurn.callsIn lock turns :=
      congrArg List.flatten hcalls
    have hsame : ∀ call succeeded succeeded', (call, succeeded) ∈ t.calls lock →
        (call, succeeded') ∈ t'.calls lock → succeeded' = succeeded := by
      intro call succeeded succeeded' hcall hcall'
      rw [hanswer call succeeded hcall, hanswer' call succeeded' hcall', hlength, hpast]
    have hright := run.right lock t (by simp)
    have hright' := run'.right lock t' (by simp)
    obtain ⟨hcall, hafter⟩ := hright.alike hright' (List.singleton_inj.mp hrequest) hnow hsame
    refine ⟨by simp [hcalls, hcall], by simp [hheld, hafter], ?_⟩
    rw [← hlast, ← hlast', hafter]

theorem disciplined (run : Turns {} turns last) (lock : PowerLock) :
    lock.Disciplined turns last := by
  obtain ⟨hchain, hlast⟩ := run.alternates lock
  have hnone : PowerLocks.held {} lock = false := by cases lock <;> rfl
  rw [hnone] at hchain hlast
  have hright := run.right lock
  constructor
  case starts =>
    intro hfirst
    obtain ⟨rest, hrest⟩ := List.head?_eq_some_iff.mp hfirst
    rw [hrest] at hchain
    exact (List.isChain_cons_cons.mp hchain).1 rfl
  case alternates => exact (List.isChain_cons.mp hchain).2
  case held_iff =>
    rw [hlast, List.getLastD_eq_getLast?]
    cases (LockCall.successes (LockTurn.callsIn lock turns)).getLast? <;> simp
  case right => exact hright
  case retried =>
    rintro before t t' after call rfl hfailed
    have hlinked := (List.isChain_append.mp run.linked.1).2.1
    exact (hright t (by simp)).retried (hright t' (by simp))
      (List.isChain_cons_cons.mp hlinked).1 hfailed

end PowerLocks.Turns

/-! ### Backends -/

/-- Surroundings in which the backends of the locks answer in this way. -/
def Effect.answeredWith (answer : LockCall → Bool) : (effect : Effect) → effect.Answer
  | .lock call => answer call
  | effect => effect.plain

/-- What one request comes to with these answers. -/
def LockRequest.answered (answer : LockCall → Bool) (locks : PowerLocks) (request : LockRequest) :
    LockTurn :=
  let (trace, after) := (Action.locks (request.carryOut locks)).converse
    (fun _ => Effect.answeredWith answer) []
  ⟨request, locks, trace, after⟩

theorem PowerLocks.Turns.answered {locks now : PowerLocks} {turns : List LockTurn}
    (run : locks.Turns turns now) (answer : LockCall → Bool) (request : LockRequest) :
    locks.Turns (turns ++ [request.answered answer now]) (request.answered answer now).after :=
  .turn run (follows_converse (I := Effects) (fun _ => Effect.answeredWith answer) [] _)

theorem LockRequest.eq_of_mem_answered {answer : LockCall → Bool} {locks : PowerLocks}
    {request : LockRequest} {lock : PowerLock} {call : LockCall} {succeeded : Bool}
    (h : (call, succeeded) ∈ (request.answered answer locks).calls lock) :
    call.lock = lock ∧ succeeded = answer call := by
  obtain ⟨hmem, hlock⟩ := List.mem_filter.mp h
  obtain ⟨⟨op, reply⟩, he, heq⟩ := List.mem_filterMap.mp hmem
  change _ ∈ (converse (I := Effects) (fun _ => Effect.answeredWith answer) [] _).1 at he
  have hreply := answer_of_mem_converse he
  cases op <;> cases heq
  exact ⟨by simpa using hlock, hreply⟩

/-- Every sequence of requests can be made of backends of every kind. -/
theorem PowerLocks.exists_turns (locks : PowerLocks) (backends : PowerLock → LockBackend)
    (requests : List LockRequest) :
    ∃ turns last, locks.Turns turns last ∧ turns.map LockTurn.request = requests ∧
      ∀ lock : PowerLock, lock.AnsweredBy (backends lock) turns := by
  induction requests using List.reverseRecOn with
  | nil => exact ⟨[], locks, .start, rfl, fun _ => throughout_nil⟩
  | append_singleton requests request ih =>
    obtain ⟨turns, now, run, rfl, hanswered⟩ := ih
    let answer (call : LockCall) : Bool :=
      backends call.lock turns.length (LockTurn.callsIn call.lock turns) call
    refine ⟨_, _, run.answered answer request, List.map_append, fun lock => ?_⟩
    refine throughout_concat.mpr ⟨hanswered lock, fun call succeeded hcall => ?_⟩
    obtain ⟨rfl, hreply⟩ := LockRequest.eq_of_mem_answered hcall
    exact hreply

/-- Whatever the backends make of their calls, the successful calls of either lock acquire and
release it in turn, its record tells of the last of them, and a call is made exactly when it is
needed. What becomes of one lock does not depend on the backend of the other. -/
theorem locks_alternate (lock : PowerLock) :
    (∀ {turns last}, PowerLocks.Turns {} turns last → lock.Disciplined turns last) ∧
    (∀ {backend turns last turns' last'}, PowerLocks.Turns {} turns last →
      PowerLocks.Turns {} turns' last' →
      turns'.map LockTurn.request = turns.map LockTurn.request →
      lock.AnsweredBy backend turns → lock.AnsweredBy backend turns' →
        turns'.map (LockTurn.calls lock) = turns.map (LockTurn.calls lock) ∧
          turns'.map (fun t => t.after.held lock) = turns.map (fun t => t.after.held lock) ∧
          last'.held lock = last.held lock) ∧
    ∀ (backends : PowerLock → LockBackend) (requests : List LockRequest),
      ∃ turns last, PowerLocks.Turns {} turns last ∧ turns.map LockTurn.request = requests ∧
        ∀ lock : PowerLock, lock.AnsweredBy (backends lock) turns :=
  ⟨fun run => run.disciplined lock, fun run run' => run.alike run', PowerLocks.exists_turns {}⟩

/-- What the backends are asked and answer when both locks are to change. -/
def LockTurn.bothCalled (acquire network wake : Bool) : List (Exchange Effects) :=
  [⟨.lock ⟨.network, acquire⟩, network⟩, ⟨.lock ⟨.wake, acquire⟩, wake⟩]

/-- Both locks are asked for twice and then released. -/
def grantedTurns : List LockTurn := [
  ⟨.apply true, {}, LockTurn.bothCalled true true true, ⟨true, true⟩⟩,
  ⟨.apply true, ⟨true, true⟩, [], ⟨true, true⟩⟩,
  ⟨.releaseAll, ⟨true, true⟩, LockTurn.bothCalled false true true, {}⟩]

/-- The network lock is denied at first. -/
def deniedTurns : List LockTurn := [
  ⟨.apply true, {}, LockTurn.bothCalled true false true, ⟨true, false⟩⟩,
  ⟨.apply true, ⟨true, false⟩, [⟨.lock ⟨.network, true⟩, true⟩], ⟨true, true⟩⟩,
  ⟨.releaseAll, ⟨true, true⟩, LockTurn.bothCalled false true true, {}⟩]

theorem turns_granted : PowerLocks.Turns {} grantedTurns {} :=
  let granted := fun _ => true
  ((PowerLocks.Turns.start.answered granted (.apply true)).answered granted
    (.apply true)).answered granted .releaseAll

theorem turns_denied : PowerLocks.Turns {} deniedTurns {} :=
  let granted := fun _ => true
  let denied := fun call : LockCall => call.lock = .wake
  ((PowerLocks.Turns.start.answered denied (.apply true)).answered granted
    (.apply true)).answered granted .releaseAll

/-- The network lock makes up for the call that was denied, and the wake lock does not notice. -/
theorem locks_alternate_denied :
    PowerLocks.Turns {} deniedTurns {} ∧ PowerLocks.Turns {} grantedTurns {} ∧
      PowerLock.network.Disciplined deniedTurns {} ∧
      LockTurn.callsIn .network deniedTurns =
        [(⟨.network, true⟩, false), (⟨.network, true⟩, true), (⟨.network, false⟩, true)] ∧
      deniedTurns.map (LockTurn.calls .wake) = grantedTurns.map (LockTurn.calls .wake) := by
  have hbackend (turns : List LockTurn) (h : ∀ t ∈ turns, ∀ c ∈ t.calls .wake, c.2 = true) :
      PowerLock.wake.AnsweredBy (fun _ _ _ => true) turns :=
    Throughout.of_forall fun t ht _ call succeeded hcall => h t ht (call, succeeded) hcall
  refine ⟨turns_denied, turns_granted, (locks_alternate .network).1 turns_denied, by decide, ?_⟩
  exact ((locks_alternate .wake).2.1 turns_granted turns_denied rfl
    (hbackend _ (by decide)) (hbackend _ (by decide))).1

end Overseer
