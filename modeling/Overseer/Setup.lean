import Overseer.Installer
import Overseer.Processes.Controller

/-!
Bringing the worker to a usable state: installed, running and connected.

Every step that fails ends the attempt without rolling anything back; the next attempt starts over.
-/

namespace Overseer

/-- How the host presents itself to the worker. -/
structure HostIdentity where
  model : String
  osVersion : String
deriving DecidableEq, Repr

namespace HostIdentity

/-- The identity of a host from what its system says about itself. -/
def ofSystem (osName hostName kernel arch osVersion : String) : HostIdentity where
  model := osName ++ " " ++ hostName ++ " - kernel:" ++ kernel ++ " arch:" ++ arch
  osVersion := osVersion

end HostIdentity

/-- What stays the same over all attempts. -/
structure SetupPlan where
  installer : Installer
  workingDir : Path
  launchArgs : List String
  forceReinstall : Bool
  retry : Config.Setup
  host : HostIdentity

/-- The plan for a configuration. -/
def SetupPlan.ofConfig (config : Config) (platform : Platform) (host : HostIdentity) :
    SetupPlan where
  installer := .ofConfig config.worker platform
  workingDir := config.worker.workingDir
  launchArgs := config.worker.launchArgs
  forceReinstall := config.worker.forceReinstall
  retry := config.setup
  host := host

/-- What an attempt changes. -/
structure Attempt where
  controller : Controller
  connection : Connection
  status : Snapshot

namespace SetupPlan

/-- The name under which the worker's process is looked up. -/
def processName (plan : SetupPlan) : String := plan.installer.installed.text

/-- Stops the worker and installs it unless the installed binary is current; tells whether the
worker may be launched. -/
def install (plan : SetupPlan) (a : Attempt) : Action (Bool × Attempt) := do
  let stale ←
    if plan.forceReinstall then pure true
    else do
      let current ← Action.files plan.installer.isCurrent
      pure (!current)
  if stale then
    let (_, controller, connection) ← a.controller.terminate plan.processName a.connection
    let installed ← Action.files (plan.installer.ensureInstalled plan.forceReinstall)
    return (installed, { a with controller, connection })
  else return (true, a)

/-- Makes sure that the worker runs; tells whether it does or could be started. -/
def ensureRunning (plan : SetupPlan) (a : Attempt) : Action (Bool × Attempt) := do
  match ← a.controller.find plan.processName with
  | (some _, controller) => return (true, { a with controller })
  | (none, controller) =>
    let (launched, controller) ←
      controller.launch plan.installer.installed plan.launchArgs plan.workingDir
    return (launched, { a with controller })

/-- Reads the worker's preferences and tells it about the host. Without preferences the connection
is closed, so that the next tick sets up again; the worker's answer about the host is ignored. -/
def introduce (plan : SetupPlan) (a : Attempt) : Action (Bool × Attempt) := do
  match ← Action.request .getPreferences with
  | .error _ =>
    let connection ← a.connection.close
    return (false, { a with connection })
  | .ok preferences =>
    let status ← Action.post a.status (.preferences preferences)
    let _ ← Action.request (.setHostInfo plan.host.model plan.host.osVersion)
    return (true, { a with status })

/-- All steps in order, up to the first that fails. -/
def steps (plan : SetupPlan) (a : Attempt) : Action (Bool × Attempt) := do
  match ← plan.install a with
  | (false, a) => return (false, a)
  | (true, a) =>
    match ← plan.ensureRunning a with
    | (false, a) => return (false, a)
    | (true, a) =>
      let { connectAttempts, connectDelayMs } := plan.retry
      match ← a.connection.connectWithRetry connectAttempts connectDelayMs with
      | (false, connection) => return (false, { a with connection })
      | (true, connection) => plan.introduce { a with connection }

/-- One attempt, with its outcome as the setup status. -/
def run (plan : SetupPlan) (a : Attempt) : Action (Bool × Attempt) := do
  let status ← Action.post a.status (.setup .launching)
  let (ok, a) ← plan.steps { a with status }
  let status ← Action.post a.status (.setup (if ok then .available else .error))
  return (ok, { a with status })

end SetupPlan

end Overseer
