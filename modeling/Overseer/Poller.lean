import Overseer.Cadence
import Overseer.Setup
import Overseer.Ticker

/-!
The recurring poll of the worker.

Each tick makes sure that the worker is set up, reports the state of the device, reads the worker's
status, fully or minimally, and derives the power locks from it. A full read is published as a whole
or not at all. Ticks and commands are handled one at a time.
-/

namespace Overseer

/-- Why a tick failed. -/
inductive TickError where
  | status (error : ChannelError)
  /-- The parts of a full read that are missing. -/
  | incomplete (missing : List String)
deriving DecidableEq, Repr

/-- The text of a failed tick. -/
def TickError.message : TickError → String
  | status error => "status read failed: " ++ error.message
  | incomplete missing => "incomplete full read, missing: " ++ ", ".intercalate missing

/-- The name of a failed tick's kind. -/
def TickError.kind : TickError → String
  | status _ => "Status"
  | incomplete _ => "PartialRead"

/-- How a tick ended. -/
inductive TickOutcome where
  | setupFailed
  | read (kind : ReadKind)
deriving DecidableEq, Repr

def TickOutcome.name : TickOutcome → String
  | setupFailed => "setup_failed"
  | read kind => kind.name

/-- The answers to the five requests of a full read. -/
structure Answers where
  status : Except ChannelError RunStatus
  state : Except ChannelError StateReport
  transfers : Except ChannelError (List Transfer)
  accountManager : Except ChannelError AccountManager
  notices : Except ChannelError (List Notice)

namespace Answers

/-- The part's name if its answer failed. -/
def failed {α : Type} (name : String) : Except ChannelError α → List String
  | .ok _ => []
  | .error _ => [name]

/-- The host is missing when the state was answered without it. -/
def hostMissing : Except ChannelError StateReport → List String
  | .ok ⟨_, _, none⟩ => ["state.host_info"]
  | _ => []

/-- The missing parts, in order. -/
def missing (a : Answers) : List String :=
  failed "status" a.status ++ failed "state" a.state ++ hostMissing a.state
    ++ failed "transfers" a.transfers ++ failed "acctMgrInfo" a.accountManager
    ++ failed "notices" a.notices

/-- The full read that complete answers make, on top of the notices held, and the count of notices
that arrived. -/
def assemble (held : List Notice) : Answers → Option (FullRead × Nat)
  | ⟨.ok status, .ok ⟨tasks, projects, some host⟩, .ok transfers, .ok accountManager,
      .ok arrived⟩ =>
    some ({ status, tasks, projects, transfers, host, accountManager,
            notices := appendNotices held arrived }, arrived.length)
  | _ => none

end Answers

/-- What a poller is told from outside. -/
inductive Command where
  | forceRefresh
  | displayChanged (on : Bool)
  | reconfigure (polling : Config.Polling)
  | shutdown
deriving DecidableEq, Repr

structure Poller where
  plan : SetupPlan
  controller : Controller
  connection : Connection
  status : Snapshot := {}
  locks : PowerLocks := {}
  cadence : Cadence
  /-- The time between regular ticks. -/
  interval : Nat
  notifyOnNotices : Bool

namespace Poller

/-- The poller for a configuration. -/
def ofConfig (config : Config) (platform : Platform) (host : HostIdentity) (displayOn : Bool) :
    Poller where
  plan := .ofConfig config platform host
  controller := { budgets := config.shutdown }
  connection := { address := config.worker.socket, tokenFile := config.worker.authFile }
  cadence := .start displayOn config.polling.skipThreshold
  interval := config.polling.interval
  notifyOnNotices := config.polling.notifyOnNotices

/-! ### Ticks -/

/-- Runs one setup attempt. -/
def setUp (p : Poller) : Action (Bool × Poller) := do
  let (ok, a) ← p.plan.run ⟨p.controller, p.connection, p.status⟩
  return (ok, { p with controller := a.controller, connection := a.connection, status := a.status })

/-- Derives the locks and the computing flag from the worker's status. -/
def applyLocks (p : Poller) (status : RunStatus) : Action Poller := do
  let computing := status.taskSuspendReason.computing
  let locks ← Action.locks (p.locks.apply computing)
  let status ← Action.post p.status (.computing computing)
  return { p with locks, status }

/-- Asks for all parts of a full read, whatever fails. -/
def ask (since : UInt64) : Action Answers := do
  let status ← Action.request .getStatus
  let state ← Action.request .getState
  let transfers ← Action.request .getTransfers
  let accountManager ← Action.request .getAccountManager
  let notices ← Action.request (.getNotices since)
  return { status, state, transfers, accountManager, notices }

/-- Publishes a full read and tells of the notices that arrived with it. -/
def publish (p : Poller) (read : FullRead) (arrived : Nat) : Action Poller := do
  let time ← Action.now
  let status ← Action.post p.status (.publish read time)
  if p.notifyOnNotices then
    let status ← Action.post status (.notices arrived)
    return { p with status }
  else return { p with status }

/-- Reads everything. The locks need only the status, not the whole batch. -/
def fullRead (p : Poller) : Action (Except TickError Unit × Poller) := do
  let answers ← ask p.status.latestSeqno
  let p ←
    match answers.status with
    | .ok status => p.applyLocks status
    | .error _ => pure p
  match answers.assemble p.status.notices with
  | none => return (.error (.incomplete answers.missing), p)
  | some (read, arrived) =>
    let p ← p.publish read arrived
    return (.ok (), p)

/-- Reads the overall status only. -/
def minimalRead (p : Poller) : Action (Except TickError Unit × Poller) := do
  match ← Action.request .getStatus with
  | .error e => return (.error (.status e), p)
  | .ok status =>
    let p ← p.applyLocks status
    return (.ok (), p)

/-- Reports the device and reads the worker, with a connection that was just seen to be alive. -/
def poll (p : Poller) (force : Bool) : Action (Except TickError TickOutcome × Poller) := do
  let power ← Action.readPower
  let report ← Action.request (.reportDevice (.of p.cadence.screenOn power))
  let (kind, cadence) := p.cadence.next force
  let cadence := if report.isOk then cadence.reported kind else cadence
  let p := { p with cadence }
  let (result, p) ←
    match kind with
    | .minimal => p.minimalRead
    | .full => p.fullRead
  return (result.map fun () => .read kind, p)

/-- One tick. After a setup the read is full. -/
def tick (p : Poller) (force : Bool) : Action (Except TickError TickOutcome × Poller) := do
  if ← p.connection.isAlive then p.poll force
  else
    match ← p.setUp with
    | (false, p) => return (.ok .setupFailed, p)
    | (true, p) => p.poll true

/-! ### Commands -/

/-- Applies polling settings; gives the new period if it changed. -/
def reconfigure (p : Poller) (polling : Config.Polling) : Option Nat × Poller :=
  let period := polling.interval
  let p :=
    { p with
      cadence := p.cadence.setThreshold polling.skipThreshold
      notifyOnNotices := polling.notifyOnNotices }
  if period = p.interval then (none, p) else (some period, { p with interval := period })

/-- The display was switched. -/
def setScreen (p : Poller) (on : Bool) : Poller := { p with cadence := p.cadence.setScreen on }

/-- Closes the channel and releases the locks. -/
def shutdown (p : Poller) : Action Poller := do
  let connection ← p.connection.close
  let locks ← Action.locks p.locks.releaseAll
  return { p with connection, locks }

end Poller

/-! ### Runs -/

/-- What a running poller wakes up for. -/
inductive Wake where
  | tick
  | command (command : Command)
deriving DecidableEq, Repr

/-- A poller with the ticker that paces it. -/
structure Session where
  poller : Poller
  ticker : Ticker

namespace Session

/-- The first tick is due at once. -/
def start (poller : Poller) (now : Nat) : Session := ⟨poller, .startingAt now poller.interval⟩

/-- One tick, whose failure ends nothing. -/
def tick (s : Session) (force : Bool) : Action Session := do
  let (_, poller) ← s.poller.tick force
  return { s with poller }

/-- Handles a wake at a time of the clock; `none` once the poller is told to stop. A new period
starts when it is set. -/
def handle (s : Session) (now : Nat) : Wake → Option (Action Session)
  | .tick => some ({ s with ticker := s.ticker.fired now }.tick false)
  | .command .forceRefresh => some (s.tick true)
  | .command (.displayChanged on) =>
    let s := { s with poller := s.poller.setScreen on }
    some (if on then s.tick true else pure s)
  | .command (.reconfigure polling) =>
    match s.poller.reconfigure polling with
    | (none, poller) => some (pure { s with poller })
    | (some period, poller) => some (pure ⟨poller, .startingAt (now + period) period⟩)
  | .command .shutdown => none

/-- Handles wakes, each with its time, up to a stop or to the last, and then shuts down. -/
def run (s : Session) : List (Nat × Wake) → Action Poller
  | [] => s.poller.shutdown
  | (now, wake) :: rest =>
    match s.handle now wake with
    | none => s.poller.shutdown
    | some action => do
      let s ← action
      s.run rest

end Session

end Overseer
