import Overseer.Path

/-!
Where the supervisor keeps its files.

The data directory is the one named by the environment, else a directory of its own below the
platform's data directory. It holds the configuration (written by the operator), the status file
(written by the supervisor) and the lock file (held by the running supervisor).
-/

namespace Overseer

/-- The variables of the environment that name directories. -/
structure Environment where
  supervisorHome : Option String
  dataHome : Option String
  home : Option String
deriving DecidableEq, Repr

namespace DataDir

/-- The name of the override variable. -/
def homeVariable : String := "WORKER_SUPERVISOR_HOME"

/-- The supervisor's directory below a platform's data directory. -/
def appName : String := "worker-supervisor"

/-- The override if it is not empty, else the supervisor's directory below `dataDir`. -/
def resolve (override dataDir : Option Path) : Option Path :=
  match override with
  | some home => if home.text = "" then dataDir.map (·.join appName) else some home
  | none => dataDir.map (·.join appName)

/-- The home directory of the user the supervisor runs as, where the environment names none. -/
def fallbackHome : String := "/root"

/-- The platform's data directory: the one the environment names if it is absolute, else the usual
one below the home directory. -/
def platform (env : Environment) : Path :=
  let home :=
    match env.home with
    | none => fallbackHome
    | some "" => fallbackHome
    | some home => home
  let usual := Path.join ⟨home⟩ ".local/share"
  match env.dataHome with
  | some dir => if Path.isAbsolute ⟨dir⟩ then ⟨dir⟩ else usual
  | none => usual

/-- The data directory under an environment. -/
def ofEnvironment (env : Environment) : Option Path :=
  resolve (env.supervisorHome.map Path.mk) (some (platform env))

def configFile (dir : Path) : Path := dir.join "config.toml"

def statusFile (dir : Path) : Path := dir.join "status.toml"

def lockFile (dir : Path) : Path := dir.join "supervisor.lock"

end DataDir

end Overseer
