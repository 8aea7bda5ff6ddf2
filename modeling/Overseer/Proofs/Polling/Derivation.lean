import Overseer.Proofs.Polling.FullRead
import Overseer.Proofs.Polling.Turns

/-!
The locks follow the status, and nothing else.

A tick in which the worker gives its status ends with the locks and the computing flag as the
suspend reason says, however much is read besides; any other tick leaves them alone (`Derives`).
Over a run in which no backend fails the locks are thus a function of the statuses that were read,
and agree with the computing flag. `locks_follow_status` is the main statement.
-/

namespace Overseer

open Program

/-- A worker computes exactly with these two codes. -/
theorem SuspendReason.computing_ofCode (c : Int32) :
    (ofCode c).computing = decide (c = 0 ∨ c = 64) := by
  by_cases h : c = 0 ∨ c = 64
  · rcases h with rfl | rfl
    · decide
    · decide
  · rw [decide_eq_false h]
    have hcode : (ofCode c).code = c := code_ofCode c
    cases hreason : ofCode c with
    | notSuspended => exact absurd (.inl (by rw [← hcode, hreason]; rfl)) h
    | cpuThrottle => exact absurd (.inr (by rw [← hcode, hreason]; rfl)) h
    | _ => rfl

/-- The statuses that the worker gave, in order. -/
def statusReads (trace : List (Exchange Effects)) : List RunStatus :=
  (channelled trace).filterMap fun
    | ⟨.call .getStatus, .ok status⟩ => some status
    | _ => none

@[simp] theorem statusReads_append (first second : List (Exchange Effects)) :
    statusReads (first ++ second) = statusReads first ++ statusReads second := by
  rw [statusReads, channelled_append, List.filterMap_append]
  rfl

/-- No lock is called and no status read. -/
structure Idle (trace : List (Exchange Effects)) : Prop where
  lockCalls : lockCalls trace = []
  statusReads : statusReads trace = []

theorem Idle.of_forall {trace : List (Exchange Effects)}
    (h : ∀ e ∈ trace, (∀ call, e.op ≠ .lock call) ∧ e.op ≠ .channel (.call .getStatus)) :
    Idle trace where
  lockCalls := by
    refine List.filterMap_eq_nil_iff.mpr fun e he => ?_
    split
    · exact absurd rfl ((h _ he).1 _)
    · rfl
  statusReads := by
    refine List.filterMap_eq_nil_iff.mpr fun e he => ?_
    split
    · exact absurd rfl (h _ (mem_channelled.mp he)).2
    · rfl

theorem Idle.not_lockFailed {trace : List (Exchange Effects)} (h : Idle trace) (lock : PowerLock) :
    lockFailed lock trace = false := by
  rw [lockFailed, h.lockCalls]
  rfl

theorem Idle.append {first second : List (Exchange Effects)} (h : Idle first)
    (h' : Idle second) : Idle (first ++ second) where
  lockCalls := by rw [lockCalls_append, h.lockCalls, h'.lockCalls]; rfl
  statusReads := by rw [statusReads_append, h.statusReads, h'.statusReads]; rfl

/-! ### One tick -/

namespace Poller

/-- The locks and the computing flag are the same. -/
structure SameLocks (p p' : Poller) : Prop where
  locks : p'.locks = p.locks
  computing : p'.status.computing = p.status.computing

/-- The locks and the computing flag follow the status if one was read, and stay otherwise. A lock
whose own backend call failed stays in any case. -/
structure Derives (p : Poller) (trace : List (Exchange Effects)) (p' : Poller) : Prop where
  once : (statusReads trace).length ≤ 1
  read : ∀ status ∈ statusReads trace,
    p'.status.computing = status.taskSuspendReason.computing ∧
      ∀ lock, p'.locks.held lock =
        if lockFailed lock trace then p.locks.held lock else status.taskSuspendReason.computing
  unread : statusReads trace = [] → lockCalls trace = [] ∧ p'.locks = p.locks ∧
    p'.status.computing = p.status.computing

namespace Derives

variable {p q p' : Poller} {first second : List (Exchange Effects)}

/-- What is idle before leaves the derivation as it is, -/
theorem prepend (h : q.Derives second p') (hfirst : Idle first) (hq : p.SameLocks q) :
    p.Derives (first ++ second) p' where
  once := by
    rw [statusReads_append, hfirst.statusReads, List.nil_append]
    exact h.once
  read := by
    rw [statusReads_append, hfirst.statusReads, List.nil_append]
    intro status hstatus
    obtain ⟨hcomputing, hheld⟩ := h.read status hstatus
    refine ⟨hcomputing, fun lock => ?_⟩
    rw [lockFailed_append, hfirst.not_lockFailed, Bool.false_or, ← hq.locks]
    exact hheld lock
  unread := by
    rw [statusReads_append, hfirst.statusReads, lockCalls_append, hfirst.lockCalls]
    intro hreads
    obtain ⟨hcalls, hlocks, hcomputing⟩ := h.unread hreads
    exact ⟨hcalls, hlocks.trans hq.locks, hcomputing.trans hq.computing⟩

/-- and so does what is idle after it. -/
theorem append (h : p.Derives first q) (hsecond : Idle second) (hp' : q.SameLocks p') :
    p.Derives (first ++ second) p' where
  once := by
    rw [statusReads_append, hsecond.statusReads, List.append_nil]
    exact h.once
  read := by
    rw [statusReads_append, hsecond.statusReads, List.append_nil]
    intro status hstatus
    obtain ⟨hcomputing, hheld⟩ := h.read status hstatus
    refine ⟨hp'.computing.trans hcomputing, fun lock => ?_⟩
    rw [lockFailed_append, hsecond.not_lockFailed, Bool.or_false, hp'.locks]
    exact hheld lock
  unread := by
    rw [statusReads_append, hsecond.statusReads, lockCalls_append, hsecond.lockCalls]
    intro hreads
    rw [List.append_nil] at hreads ⊢
    obtain ⟨hcalls, hlocks, hcomputing⟩ := h.unread hreads
    exact ⟨hcalls, hp'.locks.trans hlocks, hp'.computing.trans hcomputing⟩

theorem of_idle (hfirst : Idle first) (hp' : p.SameLocks p') : p.Derives first p' where
  once := by simp [hfirst.statusReads]
  read := by simp [hfirst.statusReads]
  unread := fun _ => ⟨hfirst.lockCalls, hp'.locks, hp'.computing⟩

end Derives

theorem SameLocks.refl (p : Poller) : p.SameLocks p := ⟨rfl, rfl⟩

/-- The status was read before, and nothing else happened since. -/
theorem applyLocks_derives (p : Poller) (status : RunStatus) {first : List (Exchange Effects)}
    (hcalls : lockCalls first = []) (hreads : statusReads first = [status]) :
    Ensures (p.applyLocks status) fun trace p' => p.Derives (first ++ trace) p' := by
  refine (p.applyLocks_ensures status).mono ?_
  rintro trace p' ⟨hframe, hchannelled, -, hheld⟩
  have hstatuses : statusReads (first ++ trace) = [status] := by
    rw [statusReads_append, hreads, statusReads, hchannelled]
    rfl
  have hfailed : ∀ lock, lockFailed lock (first ++ trace) = lockFailed lock trace := by
    intro lock
    rw [lockFailed_append, lockFailed, hcalls, List.any_nil, Bool.false_or]
  refine {
    once := by rw [hstatuses]; exact Nat.le_refl 1
    read := ?_
    unread := fun hunread => by cases hstatuses.symm.trans hunread }
  rw [hstatuses]
  intro status' hstatus
  obtain rfl := List.mem_singleton.mp hstatus
  refine ⟨by rw [hframe], fun lock => ?_⟩
  rw [hfailed]
  exact hheld lock

theorem minimalRead_derives (p : Poller) :
    Ensures p.minimalRead fun trace (_, p') => p.Derives trace p' := by
  apply Ensures.question
  intro answer
  cases answer with
  | error e => exact Ensures.done (.of_idle ⟨rfl, rfl⟩ (.refl p))
  | ok status =>
    have hderives : Ensures (p.applyLocks status) fun trace p' =>
        p.Derives ([⟨.channel (.call .getStatus), .ok status⟩] ++ trace) p' :=
      p.applyLocks_derives status rfl rfl
    refine Ensures.bind hderives ?_
    rintro trace p' hp'
    refine Ensures.done ?_
    rw [List.append_nil]
    exact hp'

theorem publish_idle (p : Poller) (read : FullRead) (arrived : Nat) :
    Ensures (p.publish read arrived) fun trace p' => Idle trace ∧ p.SameLocks p' := by
  refine Ensures.question fun time => Ensures.question fun _ => ?_
  by_cases hnotify : p.notifyOnNotices
  · simp only [if_pos hnotify]
    exact Ensures.question fun _ => Ensures.done ⟨⟨rfl, rfl⟩, rfl, rfl⟩
  · simp only [if_neg hnotify]
    exact Ensures.done ⟨⟨rfl, rfl⟩, rfl, rfl⟩

theorem conclude_idle (p : Poller) (answers : Answers) :
    Ensures (p.conclude answers) fun trace (_, p') => Idle trace ∧ p.SameLocks p' := by
  unfold conclude
  cases answers.assemble p.status.notices with
  | none => exact Ensures.done ⟨⟨rfl, rfl⟩, .refl p⟩
  | some made =>
    refine Ensures.bind (p.publish_idle made.1 made.2) ?_
    rintro trace p' ⟨hidle, hsame⟩
    refine Ensures.done ?_
    rw [List.append_nil]
    exact ⟨hidle, hsame⟩

/-- The status is one of five questions; what is made of the others comes after the locks. -/
theorem fullRead_derives (p : Poller) :
    Ensures p.fullRead fun trace (_, p') => p.Derives trace p' := by
  have hask : Ensures (ask p.status.latestSeqno) fun trace answers =>
      lockCalls trace = [] ∧ statusReads trace = answers.status.toOption.toList := by
    refine Ensures.question fun status => Ensures.question fun state => ?_
    refine Ensures.question fun transfers => Ensures.question fun accountManager => ?_
    refine Ensures.question fun notices => Ensures.done ⟨rfl, ?_⟩
    cases status <;> rfl
  rw [fullRead_eq]
  refine Ensures.bind hask ?_
  rintro first answers ⟨hcalls, hreads⟩
  have hderive : Ensures (p.derive answers.status) fun second q =>
      p.Derives (first ++ second) q := by
    cases hstatus : answers.status with
    | error e =>
      rw [hstatus] at hreads
      refine Ensures.done ?_
      rw [List.append_nil]
      exact .of_idle ⟨hcalls, hreads⟩ (.refl p)
    | ok status =>
      rw [hstatus] at hreads
      exact p.applyLocks_derives status hcalls hreads
  refine Ensures.bind hderive fun second q hq => (q.conclude_idle answers).mono ?_
  rintro third ⟨result, p'⟩ ⟨hidle, hsame⟩
  rw [← List.append_assoc]
  exact hq.append hidle hsame

theorem read_derives (p : Poller) (kind : ReadKind) :
    Ensures (p.read kind) fun trace (_, p') => p.Derives trace p' := by
  cases kind with
  | minimal => exact p.minimalRead_derives
  | full => exact p.fullRead_derives

/-! What comes before a read is idle. -/

theorem Looks.idle {trace : List (Exchange Effects)} (h : Looks trace) : Idle trace := by
  refine .of_forall fun e he => ?_
  rw [h e he]
  exact ⟨fun _ => nofun, nofun⟩

theorem Reports.idle {trace : List (Exchange Effects)} (h : Reports trace) : Idle trace := by
  obtain ⟨power, status, reported, rfl⟩ := h
  exact ⟨rfl, rfl⟩

theorem idle_of_preparatory {trace : List (Exchange Effects)}
    (h : ∀ e ∈ trace, e.op.Preparatory) : Idle trace := by
  refine .of_forall fun e he => ⟨fun call hop => ?_, fun hop => ?_⟩
  · have hlock := h e he
    rw [hop] at hlock
    exact hlock
  · have hstatus := h e he
    rw [hop] at hstatus
    exact hstatus

theorem setUp_idle (p : Poller) :
    Ensures p.setUp fun trace (_, p') => Idle trace ∧ p.SameLocks p' := by
  refine p.setUp_ensures.mono ?_
  rintro trace ⟨ok, p'⟩ ⟨hprepares, hsame, hlocks⟩
  exact ⟨idle_of_preparatory hprepares, hlocks, hsame.computing⟩

/-- Every tick derives the locks, whatever it reads and whatever fails in it. -/
theorem Ticked.derives {p p' : Poller} {trace : List (Exchange Effects)}
    {outcome : Except TickError TickOutcome} (h : p.Ticked trace outcome p') :
    p.Derives trace p' := by
  cases h with
  | unready looked failed =>
    obtain ⟨hidle, hsame⟩ := p.setUp_idle failed
    exact .of_idle (looked.idle.append hidle) hsame
  | alive looked reported answered =>
    have hpoll : p.Derives _ p' :=
      (read_derives _ _ answered).prepend reported.idle ⟨rfl, rfl⟩
    exact hpoll.prepend looked.idle (.refl p)
  | @ready _ _ _ _ q _ _ _ _ looked prepared reported answered =>
    obtain ⟨hidle, hsame⟩ := p.setUp_idle prepared
    have hpoll : q.Derives _ p' :=
      (read_derives _ _ answered).prepend reported.idle ⟨rfl, rfl⟩
    exact (hpoll.prepend hidle hsame).prepend looked.idle (.refl p)

end Poller

/-! ### Runs -/

/-- What the last status says about computing. -/
def lastComputing (trace : List (Exchange Effects)) : Bool :=
  (statusReads trace).foldl (fun _ status => status.taskSuspendReason.computing) false

/-- Both locks and the computing flag are as the last status says. -/
structure Poller.InStep (p : Poller) (trace : List (Exchange Effects)) : Prop where
  locks : ∀ lock, p.locks.held lock = lastComputing trace
  computing : p.status.computing = lastComputing trace

/-- No backend call fails. -/
def NoLockFails (trace : List (Exchange Effects)) : Prop := ∀ lock, lockFailed lock trace = false

theorem NoLockFails.append_iff {first second : List (Exchange Effects)} :
    NoLockFails (first ++ second) ↔ NoLockFails first ∧ NoLockFails second := by
  simp [NoLockFails, forall_and]

/-- A tick keeps in step while no backend fails in it. -/
theorem Poller.InStep.tick {p p' : Poller} {past trace : List (Exchange Effects)}
    (h : p.InStep past) (hderives : p.Derives trace p') (hnone : NoLockFails trace) :
    p'.InStep (past ++ trace) := by
  have hlast : lastComputing (past ++ trace) = (statusReads trace).foldl
      (fun _ status => status.taskSuspendReason.computing) (lastComputing past) := by
    rw [lastComputing, statusReads_append, List.foldl_append]
    rfl
  match hreads : statusReads trace, hderives.once with
  | [], _ =>
    obtain ⟨-, hlocks, hcomputing⟩ := hderives.unread hreads
    rw [hreads] at hlast
    exact ⟨fun lock => by rw [hlocks, hlast]; exact h.locks lock,
      by rw [hcomputing, hlast]; exact h.computing⟩
  | [status], _ =>
    obtain ⟨hcomputing, hheld⟩ := hderives.read status (by simp [hreads])
    rw [hreads] at hlast
    refine ⟨fun lock => ?_, ?_⟩
    · rw [hheld, hnone, hlast]
      rfl
    · rw [hcomputing, hlast]
      rfl
  | _ :: _ :: _, honce => simp at honce

namespace Session

/-- A session whose poller has done nothing yet. -/
inductive Fresh : Session → Prop where
  | start (config : Config) (platform : Platform) (host : HostIdentity) (displayOn : Bool)
      (now : Nat) : Fresh (.start (.ofConfig config platform host displayOn) now)

theorem Runs.inStep {s s' : Session} {trace : List (Exchange Effects)} (hs : s.Fresh)
    (run : s.Runs trace s') (hnone : NoLockFails trace) : s'.poller.InStep trace := by
  refine run.invariant (fun past s => NoLockFails past → s.poller.InStep past) ?_ ?_ hnone
  · intro _
    cases hs with
    | start config platform host displayOn now =>
      exact ⟨fun lock => by cases lock <;> rfl, rfl⟩
  · intro past s more s' ih hwoken hnone
    obtain ⟨hpast, hmore⟩ := NoLockFails.append_iff.mp hnone
    obtain ⟨q, hretuned, hrest⟩ := hwoken
    obtain ⟨hstatus, hlocks⟩ := hretuned.frame
    have hq : q.InStep past := by
      obtain ⟨hheld, hcomputing⟩ := ih hpast
      exact ⟨fun lock => by rw [hlocks]; exact hheld lock, by rw [hstatus]; exact hcomputing⟩
    rcases hrest with ⟨rfl, hs'⟩ | ⟨outcome, hticked⟩
    · rw [List.append_nil, hs']
      exact hq
    · exact hq.tick hticked.derives hmore

end Session

/-- The locks and the computing flag are derived from the worker's status alone: by every tick from
the status that is read in it, if there is one, and while no backend fails over whole runs, whatever
the display, the settings and the wakes. -/
theorem locks_follow_status :
    (∀ (p p' : Poller) (force : Bool) (trace : List (Exchange Effects))
      (outcome : Except TickError TickOutcome), Follows (p.tick force) trace (outcome, p') →
      (∀ status c, statusReads trace = [status] → status.taskSuspendReason = .ofCode c →
        p'.status.computing = decide (c = 0 ∨ c = 64) ∧
          ∀ lock, p'.locks.held lock =
            if lockFailed lock trace then p.locks.held lock else decide (c = 0 ∨ c = 64)) ∧
      (statusReads trace = [] → lockCalls trace = [] ∧ p'.locks = p.locks ∧
        p'.status.computing = p.status.computing) ∧
      (statusReads trace).length ≤ 1) ∧
    (∀ (s s' : Session) (trace : List (Exchange Effects)), s.Fresh → s.Runs trace s' →
      NoLockFails trace →
        s'.poller.locks.wake = s'.poller.locks.network ∧
          s'.poller.locks.network = s'.poller.status.computing) ∧
    ∀ (s₁ s₁' s₂ s₂' : Session) (trace₁ trace₂ : List (Exchange Effects)), s₁.Fresh → s₂.Fresh →
      s₁.Runs trace₁ s₁' → s₂.Runs trace₂ s₂' → NoLockFails trace₁ → NoLockFails trace₂ →
      statusReads trace₁ = statusReads trace₂ → s₁'.poller.locks = s₂'.poller.locks := by
  refine ⟨?_, ?_, ?_⟩
  · intro p p' force trace outcome hfollows
    have hderives : p.Derives trace p' := (p.tick_ensures force hfollows).derives
    refine ⟨?_, hderives.unread, hderives.once⟩
    intro status c hreads hc
    rw [← SuspendReason.computing_ofCode, ← hc]
    exact hderives.read status (by simp [hreads])
  · intro s s' trace hs run hnone
    obtain ⟨hlocks, hcomputing⟩ := run.inStep hs hnone
    exact ⟨(hlocks .wake).trans (hlocks .network).symm, (hlocks .network).trans hcomputing.symm⟩
  · intro s₁ s₁' s₂ s₂' trace₁ trace₂ hs₁ hs₂ run₁ run₂ hnone₁ hnone₂ hreads
    obtain ⟨hlocks₁, -⟩ := run₁.inStep hs₁ hnone₁
    obtain ⟨hlocks₂, -⟩ := run₂.inStep hs₂ hnone₂
    have hlast : lastComputing trace₁ = lastComputing trace₂ := by
      rw [lastComputing, hreads, lastComputing]
    refine PowerLocks.eq_of_held fun lock => ?_
    rw [hlocks₁, hlocks₂, hlast]

/-- A session before its first tick, with the display on or off. -/
def Session.beginning (displayOn : Bool) : Session :=
  .start (.ofConfig {} .arm64 ⟨"", ""⟩ displayOn) 0

/-- What two ticks exchange against a worker that says that it computes. -/
def twoReads (displayOn : Bool) : List (Exchange Effects) :=
  ((Session.beginning displayOn).play Effect.plain [.tick, .tick]).1.flatMap fun turn =>
    turn.2.trace

/-- A connected poller whose worker says that it computes acquires both locks. Two supervisors of
which one has the display on and reads more do so alike. -/
theorem locks_follow_status_connected :
    (let p : Poller :=
      { Poller.ofConfig {} .arm64 ⟨"", ""⟩ false with
        connection := { address := ⟨"socket"⟩, tokenFile := ⟨"token"⟩, state := .authenticated } }
    let run := (p.tick true).converse (fun _ => Effect.plain) []
    run.2.2.status.computing = true ∧ ∀ lock, run.2.2.locks.held lock = true) ∧
    ∃ s₁ s₂ : Session, (Session.beginning true).Runs (twoReads true) s₁ ∧
      (Session.beginning false).Runs (twoReads false) s₂ ∧
      (twoReads false).length < (twoReads true).length ∧
      s₁.poller.locks.wake = s₁.poller.locks.network ∧
      s₁.poller.locks.network = s₁.poller.status.computing ∧
      s₁.poller.locks = s₂.poller.locks := by
  obtain ⟨htick, hstep, hsame⟩ := locks_follow_status
  constructor
  · intro p run
    obtain ⟨hread, -⟩ := htick p run.2.2 true run.1 run.2.1 (follows_converse ..)
    obtain ⟨hcomputing, hheld⟩ := hread ⟨.notSuspended, .notSuspended, 2, 2⟩ 0 rfl (by decide)
    refine ⟨hcomputing, fun lock => ?_⟩
    rw [hheld]
    cases lock <;> rfl
  · have hfresh (displayOn : Bool) : (Session.beginning displayOn).Fresh := .start ..
    have hruns (displayOn : Bool) : (Session.beginning displayOn).Runs (twoReads displayOn)
        ((Session.beginning displayOn).play Effect.plain [.tick, .tick]).2 := by
      have hturns := @Session.turns_play Effect.plain (Session.beginning displayOn) [.tick, .tick]
      have hrun := hturns.runs
      rwa [List.flatMap_map] at hrun
    have hcalls (displayOn : Bool) : lockCalls (twoReads displayOn) =
        [(⟨.network, true⟩, true), (⟨.wake, true⟩, true)] := by
      cases displayOn <;> decide +kernel
    have hworks (displayOn : Bool) : NoLockFails (twoReads displayOn) := by
      intro lock
      simp [lockFailed, hcalls]
    have hreads : statusReads (twoReads true) = statusReads (twoReads false) := by decide +kernel
    have hfewer : (twoReads false).length < (twoReads true).length := by decide +kernel
    obtain ⟨hwake, hcomputing⟩ := hstep _ _ _ (hfresh true) (hruns true) (hworks true)
    exact ⟨_, _, hruns true, hruns false, hfewer, hwake, hcomputing,
      hsame _ _ _ _ _ _ (hfresh true) (hfresh false) (hruns true) (hruns false) (hworks true)
        (hworks false) hreads⟩

end Overseer
