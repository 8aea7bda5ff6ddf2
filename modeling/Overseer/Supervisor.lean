import Overseer.Config.Watch
import Overseer.DataDir
import Overseer.Display
import Overseer.Instance
import Overseer.Poller

/-!
The supervisor as a whole.

Starting makes the data directory, takes its lock, loads the configuration and looks at the display;
nothing is installed, launched or signalled before the lock is held. A configuration that is refused
is replaced by the defaults. From then on every event becomes a command for the poller.
-/

namespace Overseer

/-- Why a supervisor did not start. -/
inductive StartError where
  | noDataDir
  | createDataDir (dir : Path) (fault : IoFault)
  | refused (error : InstanceError)
deriving Repr

/-- The text of a failed start. -/
def StartError.message : StartError → String
  | noDataDir => "no data directory, set " ++ DataDir.homeVariable
  | createDataDir dir _ => "failed to create data directory " ++ dir.text
  | refused error => error.message

/-- What a supervisor starts with. -/
structure Startup where
  dir : Path
  config : Config
  displayOn : Bool

namespace Startup

/-- Carries out a program over files. -/
def files {α : Type} (p : Program Files α) : Program LockFiles α := p.interpret Instance.file

/-- The configuration in effect after a load. -/
def effective (loaded : Except ConfigError Config) : Config :=
  match loaded with
  | .ok config => config
  | .error _ => {}

/-- Loads what a supervisor that holds the lock goes on with. -/
def load (dir : Path) : Program Files Startup := do
  let loaded ← Config.load (DataDir.configFile dir)
  let config := effective loaded
  let display ← Display.read config.display.backlightDir
  return { dir, config, displayOn := Display.initialState display }

/-- Starts in a data directory. -/
def runIn (pid : UInt32) (dir : Path) : Program LockFiles (Except StartError Startup) := do
  match ← Instance.file (.createDirectories dir) with
  | .error fault => return .error (.createDataDir dir fault)
  | .ok () =>
    match ← Instance.acquire pid (DataDir.lockFile dir) with
    | .error e => return .error (.refused e)
    | .ok () => do
      let startup ← files (load dir)
      return .ok startup

/-- Starts in the data directory that was found, if any. -/
def run (pid : UInt32) : Option Path → Program LockFiles (Except StartError Startup)
  | none => return .error .noDataDir
  | some dir => runIn pid dir

/-- The poller of a supervisor that started. -/
def poller (s : Startup) (platform : Platform) (host : HostIdentity) : Poller :=
  .ofConfig s.config platform host s.displayOn

/-- The files that stand for the wake lock. -/
def wakeLock (s : Startup) : WakeLockFiles :=
  ⟨s.config.locks.wakeLock, s.config.locks.wakeUnlock, s.config.locks.tag⟩

end Startup

/-- What a supervisor reacts to. -/
inductive Event where
  | configReloaded (config : Config)
  | displayChanged (on : Bool)
  | forceRefresh
  | shutdown

/-- The command for the poller. Of a new configuration only the polling section takes effect. -/
def Event.command : Event → Command
  | configReloaded config => .reconfigure config.polling
  | displayChanged on => .displayChanged on
  | forceRefresh => .forceRefresh
  | shutdown => .shutdown

end Overseer
