import Overseer.Files.Tree
import Overseer.Scenario.Roster
import Overseer.Status.Board
import Overseer.Wire.Frame

/-!
A scripted world.

It answers everything that a supervisor asks: a worker with prepared answers and faults, a process
table, locks, files in memory, and a clock that only moves when someone sleeps. Changes can be
planned for later; they happen while the clock passes their time. What the supervisor does is
logged.
-/

namespace Overseer.Scenario

/-- How a scripted call fails. -/
inductive CallFault where
  /-- Answered with the response to something else. -/
  | unexpected
  /-- Not answered in time; the connection is lost. -/
  | timeout
  /-- Answered with too large a frame; the connection is lost. -/
  | tooLarge
  | rejected (message : String)
deriving DecidableEq, Repr

/-- The scripted worker. A missing answer makes its request fail. -/
structure Worker where
  reachable : Bool := true
  /-- So many connects fail before one can succeed. -/
  openFailures : Nat := 0
  acceptsToken : Bool := true
  connected : Bool := false
  status : Option RunStatus
  state : Option StateReport
  transfers : Option (List Transfer) := some []
  accountManager : Option AccountManager := some ⟨"", "", false⟩
  preferences : Option Preferences
  notices : List Notice := []
  /-- Answers with all notices, not only those after the requested number. -/
  unfiltered : Bool := false
  /-- After how many listings all processes are gone once the worker is told to quit. -/
  quitListings : Option Nat := none
  /-- Faults of calls by name. -/
  faults : List (String × CallFault) := []
  /-- The next call of this name loses the connection. -/
  dieOn : Option String := none
  /-- How long calls take, by name. -/
  delays : List (String × Nat) := []

/-- A process that was started. -/
structure Spawned where
  program : Path
  args : List String
  dir : Path

/-- What happened, each with its time, oldest last. -/
structure Log where
  calls : List (Nat × ChannelOp) := []
  signals : List (Nat × UInt32 × StopSignal) := []
  spawned : List (Nat × Spawned) := []
  locks : List (Nat × LockCall × Bool) := []
  events : List (Nat × StatusEvent) := []

/-- What a script settles beforehand, and may change later. -/
structure Script where
  worker : Worker
  roster : Roster := {}
  /-- A fixed listing instead of that of the roster. -/
  listing : Option String := none
  listingFails : Bool := false
  launchFails : Bool := false
  launchesInvisible : Bool := false
  /-- After how many listings a process is gone that gets a signal. -/
  signalListings : List (StopSignal × Nat) := []
  signalFails : Bool := false
  /-- The lock calls that fail. -/
  lockFailures : List LockCall := []

structure World where
  script : Script
  tree : Tree := .empty
  clock : Nat := 0
  /-- Changes to come, in the order of their times. -/
  planned : List (Nat × (Script → Script)) := []
  board : Board := {}
  log : Log := {}

namespace World

/-! ### Time -/

/-- Applies the changes up to a time. -/
def applyPlanned (time : Nat) : List (Nat × (Script → Script)) → World → World
  | [], w => { w with planned := [] }
  | (due, change) :: rest, w =>
    if due ≤ time then applyPlanned time rest { w with script := change w.script }
    else { w with planned := (due, change) :: rest }

/-- Lets the clock reach a time. -/
def advanceTo (w : World) (time : Nat) : World :=
  let w := applyPlanned time w.planned w
  { w with clock := max w.clock time }

/-- Lets some milliseconds pass. -/
def pass (w : World) (millis : Nat) : World :=
  if millis = 0 then w else w.advanceTo (w.clock + millis)

/-! ### The worker -/

/-- Changes the worker. -/
def onWorker (w : World) (change : Worker → Worker) : World :=
  { w with script := { w.script with worker := change w.script.worker } }

/-- Changes the process table. -/
def onRoster (w : World) (change : Roster → Roster) : World :=
  { w with script := { w.script with roster := change w.script.roster } }

/-- Enters a call in the log and waits as long as calls of this name take. -/
def begin (w : World) (name : String) (op : ChannelOp) : World :=
  let w := { w with log := { w.log with calls := (w.clock, op) :: w.log.calls } }
  w.pass ((w.script.worker.delays.lookup name).getD 0)

/-- An answer that was prepared; without one the response is to something else. -/
def prepared {α : Type} (name : String) : Option α → Except ChannelError α
  | some answer => .ok answer
  | none => .error (.unexpectedResponse name)

/-- The prepared answer to a request, with what the request does to the world. -/
def answer (w : World) (name : String) : (r : Request) → Except ChannelError r.Reply × World
  | .authenticate _ =>
    if w.script.worker.acceptsToken then (.ok (), w) else (.error (.rejected "bad password"), w)
  | .quit =>
    match w.script.worker.quitListings with
    | none => (.ok (), w)
    | some listings => (.ok (), w.onRoster (·.leaveAll listings))
  | .getStatus => (prepared name w.script.worker.status, w)
  | .getState => (prepared name w.script.worker.state, w)
  | .getTransfers => (prepared name w.script.worker.transfers, w)
  | .getAccountManager => (prepared name w.script.worker.accountManager, w)
  | .getNotices since =>
    (.ok (if w.script.worker.unfiltered then w.script.worker.notices
      else w.script.worker.notices.filter fun n => since < n.seqno), w)
  | .getPreferences => (prepared name w.script.worker.preferences, w)
  | .reportDevice _ => (.ok (), w)
  | .setHostInfo _ _ => (.ok (), w)

/-- The failure of a call that is scripted to fail, and the world after it. -/
def failure (w : World) (name : String) : CallFault → ChannelError × World
  | .unexpected => (.unexpectedResponse name, w)
  | .rejected message => (.rejected message, w)
  | .timeout => (.timeout, w.onWorker fun k => { k with connected := false })
  | .tooLarge =>
    (.frameTooLarge (Frame.maxLength + 1), w.onWorker fun k => { k with connected := false })

/-- Answers a request that was entered in the log. -/
def reply (w : World) (r : Request) : Except ChannelError r.Reply × World :=
  if w.script.worker.dieOn = some r.tag then
    (.error .notConnected, w.onWorker fun k => { k with connected := false, dieOn := none })
  else if !w.script.worker.connected then (.error .notConnected, w)
  else
    match w.script.worker.faults.lookup r.tag with
    | some fault =>
      let (error, w) := w.failure r.tag fault
      (.error error, w)
    | none => w.answer r.tag r

/-- Connects to the worker. -/
def connect (w : World) : Except ChannelError Unit × World :=
  if 0 < w.script.worker.openFailures then
    (.error (.io .connectionRefused),
      w.onWorker fun k => { k with openFailures := k.openFailures - 1 })
  else if !w.script.worker.reachable then (.error (.io .notFound), w)
  else (.ok (), w.onWorker fun k => { k with connected := true })

/-- Carries out an operation of the channel. -/
def performChannel (w : World) : (op : ChannelOp) → op.Answer × World
  | .connect address => (w.begin "open" (.connect address)).connect
  | .isAlive => (w.script.worker.connected, w)
  | .call r => (w.begin r.tag (.call r)).reply r
  | .close =>
    let w := { w with log := { w.log with calls := (w.clock, .close) :: w.log.calls } }
    ((), w.onWorker fun k => { k with connected := false })

/-! ### Processes and locks -/

def lookUp (w : World) (name : String) : Lookup × World :=
  if w.script.listingFails then (.failed, w)
  else
    match w.script.listing with
    | some listing =>
      (match Processes.findInListing listing name with
        | some pid => .found pid
        | none => .absent, w)
    | none =>
      let (found, roster) := w.script.roster.lookUp name
      (found, w.onRoster fun _ => roster)

/-- Sends a signal; it is logged even if it cannot be sent. -/
def signal (w : World) (pid : UInt32) (s : StopSignal) : Bool × World :=
  let w := { w with log := { w.log with signals := (w.clock, pid, s) :: w.log.signals } }
  if w.script.signalFails then (false, w)
  else
    match w.script.signalListings.lookup s with
    | none => (true, w)
    | some listings => (true, w.onRoster (·.leaveAfter pid listings))

def spawn (w : World) (spawned : Spawned) : Bool × World :=
  if w.script.launchFails then (false, w)
  else
    let w := w.onRoster (·.start spawned.program.text !w.script.launchesInvisible)
    (true, { w with log := { w.log with spawned := (w.clock, spawned) :: w.log.spawned } })

def performLock (w : World) (call : LockCall) : Bool × World :=
  let succeeded := !w.script.lockFailures.contains call
  (succeeded, { w with log := { w.log with locks := (w.clock, call, succeeded) :: w.log.locks } })

/-- Changes the board and logs the event that observers receive. -/
def post (w : World) (change : StatusChange) : World :=
  let events :=
    match change.event? w.board.snapshot with
    | none => w.log.events
    | some event => (w.clock, event) :: w.log.events
  { w with board := w.board.post change, log := { w.log with events } }

/-- Answers whatever a supervisor asks. -/
def perform (w : World) : (effect : Effect) → effect.Answer × World
  | .channel op => w.performChannel op
  | .file op =>
    let (answer, tree) := w.tree.perform op
    (answer, { w with tree })
  | .lock call => w.performLock call
  | .lookUp name => w.lookUp name
  | .signal pid s => w.signal pid s
  | .spawn program args dir => w.spawn ⟨program, args, dir⟩
  | .sleep millis => ((), w.pass millis)
  | .now => (⟨w.clock * 1000000⟩, w)
  | .readPower => ({}, w)
  | .post change => ((), w.post change)

/-- Runs an action in the world. -/
def run {α : Type} (w : World) : Action α → α × World
  | .done a => (a, w)
  | .ask effect next =>
    let (answer, w) := w.perform effect
    w.run (next answer)

/-- The world with an empty log. -/
def clearLog (w : World) : World := { w with log := {} }

end World

end Overseer.Scenario
