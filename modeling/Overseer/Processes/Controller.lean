import Overseer.Config.Basic
import Overseer.Connection

/-!
Starting and stopping the worker's process.

A process number is only an observation, so it is looked up again before every signal. Stopping
escalates: a request to quit over the channel, then a signal to quit, then one to kill, each with a
budget of checks for the process to be gone. It never fails; a survivor is an outcome.
-/

namespace Overseer

/-- The worker's life as far as it is known. -/
inductive WorkerState where
  | notRunning
  | starting
  | running
  | gracefulStop
  | forcedStop
deriving DecidableEq, Repr

def WorkerState.name : WorkerState → String
  | notRunning => "NotRunning"
  | starting => "Starting"
  | running => "Running"
  | gracefulStop => "GracefulStop"
  | forcedStop => "ForcedStop"

/-- How stopping the worker ended. -/
inductive StopOutcome where
  /-- There was no process. -/
  | notRunning
  /-- Gone after the request to quit. -/
  | graceful
  /-- Gone after the signal to quit. -/
  | quit
  /-- Gone after the signal to kill. -/
  | killed
  /-- Still there after the signal to kill. -/
  | survived (pid : UInt32)
deriving DecidableEq, Repr

def StopOutcome.name : StopOutcome → String
  | notRunning => "NotRunning"
  | graceful => "Graceful"
  | quit => "Quit"
  | killed => "Killed"
  | survived _ => "Survived"

structure Controller where
  budgets : Config.Shutdown
  state : WorkerState := .notRunning

namespace Controller

/-- The state after a process was seen. -/
def seen (c : Controller) : Controller :=
  match c.state with
  | .starting | .notRunning => { c with state := .running }
  | _ => c

/-- The state after no process was seen. -/
def unseen (c : Controller) : Controller :=
  match c.state with
  | .running => { c with state := .notRunning }
  | _ => c

/-- Looks for the process of a name. A listing that fails shows nothing. -/
def find (c : Controller) (name : String) : Action (Option UInt32 × Controller) := do
  match ← Action.lookUp name with
  | .found pid => return (some pid, c.seen)
  | .absent => return (none, c.unseen)
  | .failed => return (none, c)

/-- Starts the worker; tells whether it could be started. -/
def launch (c : Controller) (program : Path) (args : List String) (dir : Path) :
    Action (Bool × Controller) := do
  if ← Action.spawn program args dir then return (true, { c with state := .starting })
  else return (false, { c with state := .notRunning })

/-- Checks up to `attempts` times whether the process is gone, each time after a pause. -/
def waitForExit (c : Controller) (name : String) (rate : Nat) : Nat → Action (Bool × Controller)
  | 0 => return (false, c)
  | attempts + 1 => do
    Action.sleep rate
    match ← c.find name with
    | (none, c) => return (true, c)
    | (some _, c) => c.waitForExit name rate attempts

/-- The outcome, with the state that goes with a worker that is gone. -/
def gone (c : Controller) (outcome : StopOutcome) : StopOutcome × Controller :=
  (outcome, { c with state := .notRunning })

/-- Kills the process that survived the signal to quit. -/
def kill (c : Controller) (name : String) (pid : UInt32) : Action (StopOutcome × Controller) := do
  let _ ← Action.signal pid .kill
  match ← c.waitForExit name c.budgets.signalRateMs c.budgets.signalAttempts with
  | (true, c) => return c.gone .killed
  | (false, c) =>
    match ← c.find name with
    | (none, c) => return c.gone .killed
    | (some pid, c) => return (.survived pid, { c with state := .running })

/-- Stops the process with signals. -/
def forceStop (c : Controller) (name : String) : Action (StopOutcome × Controller) := do
  match ← c.find name with
  | (none, c) => return c.gone .graceful
  | (some pid, c) =>
    let c := { c with state := .forcedStop }
    let _ ← Action.signal pid .quit
    match ← c.waitForExit name c.budgets.signalRateMs c.budgets.signalAttempts with
    | (true, c) => return c.gone .quit
    | (false, c) =>
      match ← c.find name with
      | (none, c) => return c.gone .quit
      | (some pid, c) => c.kill name pid

/-- Asks the worker to quit and waits for it; tells whether it is gone. -/
def quitGracefully (c : Controller) (name : String) (connection : Connection) :
    Action (Bool × Controller × Connection) := do
  match ← connection.connect with
  | (false, connection) => return (false, c, connection)
  | (true, connection) =>
    let quit ← Action.request .quit
    let connection ← connection.close
    match quit with
    | .error _ => return (false, c, connection)
    | .ok () =>
      let (exited, c) ← c.waitForExit name c.budgets.gracefulRateMs c.budgets.gracefulAttempts
      return (exited, c, connection)

/-- Stops the process of a name. -/
def terminate (c : Controller) (name : String) (connection : Connection) :
    Action (StopOutcome × Controller × Connection) := do
  match ← c.find name with
  | (none, c) =>
    let (outcome, c) := c.gone .notRunning
    return (outcome, c, connection)
  | (some _, c) =>
    let c := { c with state := .gracefulStop }
    match ← c.quitGracefully name connection with
    | (true, c, connection) =>
      let (outcome, c) := c.gone .graceful
      return (outcome, c, connection)
    | (false, c, connection) =>
      let (outcome, c) ← c.forceStop name
      return (outcome, c, connection)

end Controller

end Overseer
