import Overseer.Path

/-!
The configuration of a supervisor.

Seven sections, each with a value for every field when the file gives none. Counts and milliseconds
are natural numbers; reading a file bounds them. Two configurations are compared with `==`, which
looks at the components of their paths.
-/

namespace Overseer

/-- A file that is installed beside the worker binary. -/
structure AuxFile where
  /-- Its name in the asset directory. -/
  name : String
  /-- Its name in the working directory, when that differs. -/
  target : Option String := none
  /-- Replace an existing copy on reinstall. -/
  overwrite : Bool := false
deriving DecidableEq, Repr

/-- The name a file gets in the working directory. -/
def AuxFile.targetName (a : AuxFile) : String := a.target.getD a.name

namespace Config

/-- Where the worker lives and how it is started. -/
structure Worker where
  /-- Where the worker is installed, and its working directory. -/
  workingDir : Path := ⟨"/var/lib/worker-supervisor/client"⟩
  /-- The bundled files; binaries are in a directory for each processor family. -/
  assetDir : Path := ⟨"/usr/share/worker-supervisor/assets"⟩
  binaryName : String := "boinc"
  /-- The file in the working directory that holds the password of the control channel. -/
  authFileName : String := "gui_rpc_auth.cfg"
  /-- The socket of the control channel, below the working directory unless it is absolute. -/
  socketAddress : String := "boinc_socket"
  launchArgs : List String := ["--daemon", "--gui_rpc_unix_domain"]
  /-- Reinstall on every setup, even when the installed binary is current. -/
  forceReinstall : Bool := false
  auxFiles : List AuxFile := [
    { name := "ca-bundle.crt", overwrite := true },
    { name := "all_projects_list.xml", overwrite := true },
    { name := "nomedia", target := some ".nomedia" }]
deriving BEq, Repr

def Worker.authFile (w : Worker) : Path := w.workingDir.join w.authFileName

def Worker.socket (w : Worker) : Path := w.workingDir.join w.socketAddress

/-- The shortest time between regular ticks, in milliseconds. -/
def minInterval : Nat := 100

structure Polling where
  /-- The time between regular ticks, as it was given. -/
  statusIntervalMs : Nat := 1000
  /-- While the display is off, the number of minimal reads between full ones. -/
  skipThreshold : Nat := 10
  /-- Tell observers when notices arrive. -/
  notifyOnNotices : Bool := true
deriving DecidableEq, Repr

/-- The time between regular ticks. -/
def Polling.interval (p : Polling) : Nat := max p.statusIntervalMs minInterval

structure Setup where
  connectAttempts : Nat := 3
  connectDelayMs : Nat := 1000
deriving DecidableEq, Repr

/-- How often and how fast to check that the worker is gone. -/
structure Shutdown where
  gracefulAttempts : Nat := 10
  gracefulRateMs : Nat := 1000
  /-- After each signal. -/
  signalAttempts : Nat := 10
  signalRateMs : Nat := 1000
deriving DecidableEq, Repr

structure Locks where
  wakeLock : Path := ⟨"/sys/power/wake_lock"⟩
  wakeUnlock : Path := ⟨"/sys/power/wake_unlock"⟩
  tag : String := "worker-supervisor"
deriving BEq, Repr

structure Display where
  backlightDir : Path := ⟨"/sys/class/backlight"⟩
  pollIntervalMs : Nat := 2000
deriving BEq, Repr

structure Device where
  powerSupplyDir : Path := ⟨"/sys/class/power_supply"⟩
  netDir : Path := ⟨"/sys/class/net"⟩
deriving BEq, Repr

end Config

structure Config where
  worker : Config.Worker := {}
  polling : Config.Polling := {}
  setup : Config.Setup := {}
  shutdown : Config.Shutdown := {}
  locks : Config.Locks := {}
  display : Config.Display := {}
  device : Config.Device := {}
deriving BEq, Repr

namespace Config

/-! ### Names that cannot escape -/

/-- A configured name that is more than one plain name, with the field that holds it. -/
structure BadName where
  field : String
  name : String
deriving DecidableEq, Repr

/-- The names joined to the working or the asset directory, in the order they are checked. -/
def fileNames (c : Config) : List BadName :=
  ⟨"worker.binary_name", c.worker.binaryName⟩ :: ⟨"worker.auth_file_name", c.worker.authFileName⟩ ::
    c.worker.auxFiles.flatMap fun aux =>
      [⟨"worker.aux_files.name", aux.name⟩, ⟨"worker.aux_files.target", aux.targetName⟩]

/-- The first name that could lead out of its directory. -/
def badName? (c : Config) : Option BadName := c.fileNames.find? fun n => !Path.isPlainName n.name

/-! ### Changes -/

/-- The sections that differ and take effect only after a restart. Polling is applied at once and is
not among them. -/
def restartSections (previous next : Config) : List String :=
  [("worker", next.worker != previous.worker),
    ("setup", next.setup != previous.setup),
    ("shutdown", next.shutdown != previous.shutdown),
    ("locks", next.locks != previous.locks),
    ("display", next.display != previous.display),
    ("device", next.device != previous.device)].filterMap fun (name, changed) =>
      if changed then some name else none

/-- The polling sections differ. -/
def pollingChanged (previous next : Config) : Bool := next.polling != previous.polling

end Config

end Overseer
