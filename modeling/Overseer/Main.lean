import Overseer.Device.Reading
import Overseer.Status.Board
import Overseer.Status.Writer
import Overseer.Supervisor

/-!
The command line: a supervisor in real time.

Files, the lock on the lock file, the process table and the clock are those of the machine. Sockets,
signals and new processes are out of reach here, so a request for one of them fails, the worker
counts as unreachable, and every tick tries to set it up again. The program runs until it is killed.
-/

namespace Overseer.Main

/-! ### Files -/

/-- The kind of a fault of the system. -/
def faultOf : IO.Error → IoFault
  | .noFileOrDirectory _ _ _ => .notFound
  | .alreadyExists _ _ _ => .alreadyExists
  | .inappropriateType _ _ _ => .isADirectory
  | .permissionDenied _ _ _ => .permissionDenied
  | .invalidArgument _ _ _ => .invalidInput
  | .unsatisfiedConstraints _ _ => .directoryNotEmpty
  | .userError _ => .invalidData
  | _ => .other

def attempt {α : Type} (action : IO α) : IO (Except IoFault α) := do
  match ← action.toBaseIO with
  | .ok a => return .ok a
  | .error e => return .error (faultOf e)

/-- The permission bits as the system takes them. -/
def rightsOf (mode : Nat) : IO.FileRight :=
  let access (bits : Nat) : IO.AccessRight :=
    ⟨bits &&& 4 ≠ 0, bits &&& 2 ≠ 0, bits &&& 1 ≠ 0⟩
  ⟨access (mode >>> 6), access (mode >>> 3), access mode⟩

/-- The entries of a directory. -/
def entriesOf (dir : String) : IO (List Path) := do
  let here ← IO.currentDir
  let entries ← (here / dir).readDir
  return entries.toList.map fun entry => Path.join ⟨dir⟩ entry.fileName

def isPresent (path : String) : IO Bool := do
  let here ← IO.currentDir
  (here / path).pathExists

def isDirectory (path : String) : IO Bool := do
  let here ← IO.currentDir
  (here / path).isDir

/-- Carries out a file operation. Permission bits cannot be read, so those of a new file stand for
them. -/
def performFile : (op : FileOp) → IO op.Answer
  | .readText path => attempt (IO.FS.readFile path.text)
  | .readBytes path => attempt (IO.FS.readBinFile path.text)
  | .isPresent path => isPresent path.text
  | .isDirectory path => isDirectory path.text
  | .list path => attempt (entriesOf path.text)
  | .createDirectories path => attempt (IO.FS.createDirAll path.text)
  | .mode _ => return .ok 0o644
  | .setMode path mode => attempt (IO.setAccessRights path.text (rightsOf mode))
  | .copy source target => attempt do
      let content ← IO.FS.readBinFile source.text
      IO.FS.writeBinFile target.text content
  | .rename source target => attempt (IO.FS.rename source.text target.text)
  | .remove path => attempt (IO.FS.removeFile path.text)
  | .write path content => attempt (IO.FS.writeBinFile path.text content)
  | .openForUpdate path => attempt do
      let _ ← IO.FS.Handle.mk path.text .append
  | .truncate path => attempt do
      let handle ← IO.FS.Handle.mk path.text .readWrite
      handle.truncate
  | .append path more => attempt do
      let handle ← IO.FS.Handle.mk path.text .append
      handle.write more

/-- The lock files that are held; a lock goes away with its handle. -/
@[reducible] def Held : Type := IO.Ref (List IO.FS.Handle)

/-- Answers what a start asks for. -/
def performStart (held : Held) : (op : LockFileOp) → IO op.Answer
  | .file op => performFile op
  | .tryLock path => do
    let handle ← IO.FS.Handle.mk path.text .readWrite
    if ← handle.tryLock then
      held.modify (handle :: ·)
      return true
    else return false

/-! ### The system -/

/-- The whole number at the start of a text. -/
def leadingNat (s : String) : Nat :=
  ((Decimal.ofDigits? (s.toList.takeWhile Char.isDigit)).getD 0)

/-- The time of day, from the time of the boot and the time since. -/
def timeOfDay : IO Timestamp := do
  let stat ← IO.FS.readFile "/proc/stat"
  let uptime ← IO.FS.readFile "/proc/uptime"
  let boot := ((stat.splitOn "btime ")[1]?).getD ""
  return ⟨(leadingNat boot + leadingNat uptime) * 1000000000⟩

/-- The number of this process. -/
def ownPid : IO UInt32 := do
  let self ← IO.FS.realPath "/proc/self"
  return UInt32.ofNat (leadingNat (self.fileName.getD ""))

/-- Whether a process has a name or an executable. -/
def isNamed (name : String) (dir : Path) : IO Bool := do
  let comm ← attempt (IO.FS.readFile (dir.join "comm").text)
  let executable ← attempt (IO.FS.realPath (dir.join "exe").text)
  return comm.toOption.any (Text.trim · = name)
    || executable.toOption.any fun path => (⟨path.toString⟩ : Path) == ⟨name⟩

/-- The first of the numbered processes that has a name. -/
def firstNamed (name : String) : List Nat → IO Lookup
  | [] => return .absent
  | pid :: rest => do
    if ← isNamed name ⟨"/proc/" ++ toString pid⟩ then return .found (UInt32.ofNat pid)
    else firstNamed name rest

def lookUp (name : String) : IO Lookup := do
  match ← attempt (entriesOf "/proc") with
  | .error _ => return .failed
  | .ok entries =>
    let pids := entries.filterMap fun entry =>
      entry.fileName?.bind fun name => Decimal.ofDigits? name.toList
    firstNamed name (pids.mergeSort (· ≤ ·))

/-- What a channel that reaches nobody answers. -/
def unreachable : (op : ChannelOp) → op.Answer
  | .connect _ => .error (.io .other)
  | .isAlive => false
  | .call _ => .error .notConnected
  | .close => ()

/-- Answers whatever a supervisor asks. -/
def perform (startup : Startup) (board : IO.Ref Board) : (effect : Effect) → IO effect.Answer
  | .channel op => return unreachable op
  | .file op => performFile op
  | .lock call => (startup.wakeLock.perform call).interpret performFile
  | .lookUp name => lookUp name
  | .signal _ _ => return false
  | .spawn _ _ _ => return false
  | .sleep millis => IO.sleep (UInt32.ofNat millis)
  | .now => timeOfDay
  | .readPower =>
    let device := startup.config.device
    (Device.readPower device.powerSupplyDir device.netDir).interpret performFile
  | .post change => board.modify (·.post change)

/-! ### Running -/

/-- What is watched beside the ticks. -/
structure Watch where
  config : Config
  displayOn : Bool
  writer : StatusWriter

/-- Looks at the configuration file and the display: the events since the last look. -/
def observe (startup : Startup) (w : Watch) : IO (List Event × Watch) := do
  let display ← (Display.read startup.config.display.backlightDir).interpret performFile
  let (displayOn, switched) := Display.observe w.displayOn display
  let file := DataDir.configFile startup.dir
  let (config, reloaded) ←
    if ← isPresent file.text then
      pure (Config.follow w.config (← (Config.load file).interpret performFile))
    else pure (w.config, none)
  let events := reloaded.toList.map .configReloaded ++ switched.toList.map .displayChanged
  return (events, { w with config, displayOn })

/-- Handles wakes in order, up to a stop; tells whether the session goes on. -/
def handle (startup : Startup) (board : IO.Ref Board) (session : Session) :
    List Wake → IO (Bool × Session)
  | [] => return (true, session)
  | wake :: rest => do
    match session.handle (← IO.monoMsNow) wake with
    | none => return (false, session)
    | some action =>
      let session ← action.interpret (perform startup board)
      handle startup board session rest

/-- Shuts down, closes the board and writes the status a last time. -/
def finish (startup : Startup) (board : IO.Ref Board) (session : Session) (writer : StatusWriter) :
    IO Unit := do
  let _ ← session.poller.shutdown.interpret (perform startup board)
  board.modify Board.close
  let status := DataDir.statusFile startup.dir
  (writer.finish status (← board.get) (← timeOfDay)).interpret performFile

/-- Runs until the session is told to stop. -/
partial def loop (startup : Startup) (board : IO.Ref Board) (session : Session) (w : Watch) :
    IO Unit := do
  let (events, w) ← observe startup w
  let ticks := if session.ticker.due ≤ (← IO.monoMsNow) then [Wake.tick] else []
  let (goesOn, session) ← handle startup board session
    (events.map (fun event => .command event.command) ++ ticks)
  if goesOn then
    let writer ← (w.writer.catchUp (← board.get) (← timeOfDay)).interpret performFile
    let look := Display.pollInterval startup.config.display.pollIntervalMs
    let now ← IO.monoMsNow
    IO.sleep (UInt32.ofNat (min look (session.ticker.due - now)))
    loop startup board session { w with writer }
  else finish startup board session w.writer

/-- Runs a supervisor that has started. -/
def run (startup : Startup) : IO Unit := do
  let board ← IO.mkRef ({} : Board)
  let writer ← (StatusWriter.start (DataDir.statusFile startup.dir) {} (← timeOfDay)).interpret
    performFile
  let poller := startup.poller (.ofArch "x86_64") (.ofSystem "Linux" "localhost" "" "x86_64" "")
  loop startup board (.start poller (← IO.monoMsNow))
    { config := startup.config, displayOn := startup.displayOn, writer }

end Overseer.Main

open Overseer in
def main : IO UInt32 := do
  let environment : Environment :=
    ⟨← IO.getEnv DataDir.homeVariable, ← IO.getEnv "XDG_DATA_HOME", ← IO.getEnv "HOME"⟩
  let held : Main.Held ← IO.mkRef []
  let start := Startup.run (← Main.ownPid) (DataDir.ofEnvironment environment)
  match ← start.interpret (Main.performStart held) with
  | .error e =>
    IO.eprintln ("Error: " ++ e.message)
    return 1
  | .ok startup =>
    Main.run startup
    return 0
