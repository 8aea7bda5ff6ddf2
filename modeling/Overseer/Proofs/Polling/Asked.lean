import Overseer.Proofs.Outside
import Overseer.Proofs.Polling.FullRead
import Overseer.Proofs.Polling.Ticks

/-!
What a poll asks of its surroundings.

A minimal read asks for the worker's status and derives the locks from it. A poll reports the device
and reads the worker; it sends nothing else, and it tells observers of what it read, but never of
the setup status or of the preferences (`Poller.poll_asks`).
-/

namespace Overseer

open Program

/-- An effect of reading the status only. -/
def Effect.ReadsStatus : Effect → Prop
  | .channel (.call .getStatus) => True
  | .lock _ => True
  | .post (.computing _) => True
  | _ => False

/-- A request that a poll makes. -/
def Request.Polls : Request → Prop
  | .authenticate _ | .quit | .getPreferences | .setHostInfo _ _ => False
  | _ => True

/-- An effect of a poll. -/
def Effect.Polls : Effect → Prop
  | .channel (.call request) => request.Polls
  | .lock _ => True
  | .readPower => True
  | .now => True
  | .post (.publish _ _) => True
  | .post (.computing _) => True
  | .post (.notices _) => True
  | _ => False

theorem Effect.ReadsStatus.polls {effect : Effect} (h : effect.ReadsStatus) : effect.Polls := by
  unfold ReadsStatus at h
  split at h
  · trivial
  · trivial
  · trivial
  · exact h.elim

namespace Poller

variable (p : Poller)

theorem applyLocks_asks (status : RunStatus) : Asks Effect.ReadsStatus (p.applyLocks status) := by
  refine Asks.bind (asks_locks (fun _ => trivial) _) fun locks => ?_
  exact Asks.question trivial fun _ => Asks.done _

theorem minimalRead_asks : Asks Effect.ReadsStatus p.minimalRead := by
  refine Asks.question trivial fun answer => ?_
  cases answer with
  | error e => exact Asks.done _
  | ok status => exact Asks.bind (p.applyLocks_asks status) fun _ => Asks.done _

theorem publish_asks (read : FullRead) (arrived : Nat) :
    Asks Effect.Polls (p.publish read arrived) := by
  refine Asks.question trivial fun time => Asks.question trivial fun _ => ?_
  by_cases hnotify : p.notifyOnNotices
  · simp only [if_pos hnotify]
    exact Asks.question trivial fun _ => Asks.done _
  · simp only [if_neg hnotify]
    exact Asks.done _

theorem fullRead_asks : Asks Effect.Polls p.fullRead := by
  have hask : Asks Effect.Polls (ask p.status.latestSeqno) := by
    refine Asks.question trivial fun status => Asks.question trivial fun state => ?_
    refine Asks.question trivial fun transfers => Asks.question trivial fun manager => ?_
    exact Asks.question trivial fun notices => Asks.done _
  rw [fullRead_eq]
  refine Asks.bind hask fun answers => Asks.bind ?_ fun q => ?_
  · cases answers.status with
    | error e => exact Asks.done _
    | ok status => exact (p.applyLocks_asks status).mono fun _ h => h.polls
  · unfold conclude
    cases answers.assemble q.status.notices with
    | none => exact Asks.done _
    | some made => exact Asks.bind (q.publish_asks made.1 made.2) fun _ => Asks.done _

theorem read_asks (kind : ReadKind) : Asks Effect.Polls (p.read kind) := by
  cases kind with
  | minimal => exact p.minimalRead_asks.mono fun _ h => h.polls
  | full => exact p.fullRead_asks

/-- A poll asks for what it reads, and tells of nothing else. -/
theorem poll_asks (force : Bool) : Asks Effect.Polls (p.poll force) := by
  rw [poll_eq]
  refine Asks.question trivial fun power => Asks.question trivial fun report => ?_
  exact Asks.bind (read_asks _ _) fun _ => Asks.done _

end Poller

end Overseer
