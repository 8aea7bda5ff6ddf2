import Overseer.Channel.Socket
import Overseer.Config.Basic
import Overseer.Decimal.Nearest
import Overseer.Device.Reading
import Overseer.Effects
import Overseer.Files.Tree
import Overseer.Processes.Listing
import Overseer.Scenario.SocketServer
import Overseer.Status.Board

/-!
A machine with files, processes and a socket server.

Programs are files; what one does when it is started follows from its content, so a copy does the
same as the file it was made from. A process is found by the path of its executable or by the name
in the process table, which is the beginning of the name of the file that was started, cut after so
many bytes. A script is listed under its own name, but its executable is the shell.
-/

namespace Overseer.Scenario

/-! ### Programs -/

/-- What a program does once it is started. -/
inductive Behaviour where
  /-- Waits as many seconds as its arguments say; every signal ends it. -/
  | sleeper
  /-- A script that goes on when it is signalled to quit. -/
  | stubborn
deriving DecidableEq, Repr

namespace Behaviour

/-- The text of a program's file. -/
def image : Behaviour → String
  | sleeper => "\x7fELF sleeper"
  | stubborn => "#!/bin/sh\ntrap '' QUIT\nwhile :; do sleep 0.05; done\n"

/-- What the program in a file does; other contents cannot be started. -/
def ofImage? (content : ByteArray) : Option Behaviour :=
  [sleeper, stubborn].find? fun b => b.image.toUTF8 == content

end Behaviour

/-- The permission bits of a program. -/
def programMode : Nat := 0o755

/-- The executable that runs scripts. -/
def shell : Path := ⟨"/usr/bin/dash"⟩

/-- So many bytes of a file's name are kept in the process table. -/
def tableNameLength : Nat := 15

/-- The name in the process table of a program that is started from a file. -/
def tableName (fileName : String) : ByteArray := fileName.toUTF8.extract 0 tableNameLength

/-- A name of the process table as a text, with a replacement mark for a character that was cut. -/
def shownName (name : ByteArray) : String :=
  match String.fromUTF8? name with
  | some text => text
  | none =>
    let starts := [1, 2, 3].filterMap fun cut => String.fromUTF8? (name.extract 0 (name.size - cut))
    starts.head?.getD "" ++ "\ufffd"

/-! ### Waiting times -/

/-- The number of seconds in a unit of time, by its letter. -/
def unitSeconds? : Char → Option Float
  | 's' => some 1
  | 'm' => some 60
  | 'h' => some 3600
  | 'd' => some 86400
  | _ => none

/-- A waiting time in milliseconds: a number that is not negative, of seconds or of the unit whose
letter follows it. -/
def waitingTime? (text : String) : Option Nat :=
  let digits := text.toList.dropWhile Char.isWhitespace
  let (number, unit) :=
    match digits.getLast?.bind unitSeconds? with
    | some unit => (digits.dropLast, unit)
    | none => (digits, 1)
  match Decimal.read (String.ofList number) with
  | none => none
  | some n => if 0 ≤ n then some (n * unit * 1000).toUInt64.toNat else none

/-- How long the sleeper waits: the sum of its arguments. It ends at once when there is none, and
when one is no waiting time or begins like an option. -/
def sleepTime (args : List String) : Nat :=
  let isTime (text : String) : Bool := !text.startsWith "-" && (waitingTime? text).isSome
  if args.all isTime then (args.filterMap waitingTime?).foldl (· + ·) 0 else 0

/-! ### Machines -/

/-- A process. -/
structure Running where
  pid : UInt32
  name : ByteArray
  executable : Path
  behaviour : Behaviour
  /-- When it ends by itself. -/
  ends : Option Nat

structure Machine where
  tree : Tree
  running : List Running := []
  nextPid : UInt32 := 4001
  server : SocketServer
  socket : Socket := {}
  board : Board := {}
  devices : Config.Device := {}
  wakeLock : WakeLockFiles := ⟨⟨""⟩, ⟨""⟩, ""⟩

namespace Machine

/-- The time, which is that of the server. -/
def clock (m : Machine) : Nat := m.server.clock

def advanceTo (m : Machine) (time : Nat) : Machine :=
  { m with server := { m.server with clock := max m.server.clock time } }

/-- A number for a new process. -/
def takePid (m : Machine) : UInt32 × Machine := (m.nextPid, { m with nextPid := m.nextPid + 1 })

/-! ### Processes -/

/-- Has not ended by itself. -/
def isAlive (m : Machine) (r : Running) : Bool := r.ends.all (m.clock < ·)

/-- The processes that have not ended. -/
def alive (m : Machine) : List Running := m.running.filter m.isAlive

/-- The program at a path, with its place. A path without a slash is looked for where no scenario
has programs. -/
def program? (m : Machine) (path : Path) : Option (Place × Behaviour) :=
  match m.tree.find path with
  | .ok ⟨.file content mode, way⟩ =>
    if (Node.file content mode).allows .search ∧ path.text.toList.contains '/' then
      (Behaviour.ofImage? content).map fun b => ((⟨.file content mode, way⟩ : Reached).place, b)
    else none
  | _ => none

/-- A directory to work in. -/
def isWorkplace (m : Machine) (dir : Path) : Bool :=
  match m.tree.find dir with
  | .ok found => found.enter.isOk
  | .error _ => false

/-- The process that a program makes. -/
def process (m : Machine) (pid : UInt32) (place : Place) (args : List String) :
    Behaviour → Running
  | .sleeper => {
      pid
      name := tableName (place.getLast?.getD "")
      executable := ⟨"/" ++ "/".intercalate place⟩
      behaviour := .sleeper
      ends := some (m.clock + sleepTime args) }
  | .stubborn => {
      pid
      name := tableName (place.getLast?.getD "")
      executable := shell
      behaviour := .stubborn
      ends := none }

/-- Starts a program in a directory, from where its path is followed too. -/
def spawn (m : Machine) (path : Path) (args : List String) (dir : Path) : Bool × Machine :=
  if args.any Route.hasNul || !m.isWorkplace dir then (false, m)
  else
    let path := if path.text.toList.contains '/' then dir.join path.text else path
    match m.program? path with
    | none => (false, m)
    | some (place, behaviour) =>
      let (pid, m) := m.takePid
      (true, { m with running := m.running ++ [m.process pid place args behaviour] })

/-- Signals a process. -/
def signal (m : Machine) (pid : UInt32) (s : StopSignal) : Bool × Machine :=
  match m.alive.find? (·.pid = pid) with
  | none => (false, m)
  | some r =>
    if r.behaviour = .stubborn ∧ s = .quit then (true, m)
    else (true, { m with running := m.running.filter (·.pid ≠ pid) })

/-- The first process of a name or with an executable. -/
def lookUp (m : Machine) (name : String) : Lookup :=
  match m.alive.find? fun r => r.executable == ⟨name⟩ || r.name == name.toUTF8 with
  | some r => .found r.pid
  | none => .absent

/-- The processes as a listing. -/
def listing (m : Machine) : String :=
  "PID NAME EXE\n" ++ String.join (m.alive.map fun r =>
    toString r.pid.toNat ++ " " ++ shownName r.name ++ " " ++ r.executable.text ++ "\n")

/-- How many processes have their executable below a directory. -/
def countBelow (m : Machine) (dir : Path) : Nat :=
  (m.alive.filter fun r => dir.components.isPrefixOf r.executable.components).length

/-! ### Effects -/

/-- Runs a program over files. -/
def onFiles {α : Type} (m : Machine) (p : Program Files α) : α × Machine :=
  let (a, tree) := m.tree.run p
  (a, { m with tree })

/-- Answers whatever a supervisor asks. -/
def perform (m : Machine) : (effect : Effect) → effect.Answer × Machine
  | .channel op =>
    let ((answer, socket), server) := m.server.run m.tree (m.socket.perform op)
    (answer, { m with socket, server })
  | .file op =>
    let (answer, tree) := m.tree.perform op
    (answer, { m with tree })
  | .lock call => m.onFiles (m.wakeLock.perform call)
  | .lookUp name => (m.lookUp name, m)
  | .signal pid s => m.signal pid s
  | .spawn program args dir => m.spawn program args dir
  | .sleep millis => ((), m.advanceTo (m.clock + millis))
  | .now => (⟨m.clock * 1000000⟩, m)
  | .readPower => m.onFiles (Device.readPower m.devices.powerSupplyDir m.devices.netDir)
  | .post change => ((), { m with board := m.board.post change })

/-- Runs an action to its end. -/
def run {α : Type} (m : Machine) : Action α → α × Machine
  | .done a => (a, m)
  | .ask effect next =>
    let (answer, m) := m.perform effect
    m.run (next answer)

end Machine

/-- How far an action got: to its end, or to a sleep that lasts until a time. -/
inductive Progress (α : Type) where
  | finished (result : α)
  | asleep (till : Nat) (rest : Action α)

/-- Runs an action until it sleeps. -/
def Machine.proceed {α : Type} (m : Machine) : Action α → Progress α × Machine
  | .done a => (.finished a, m)
  | .ask (.sleep millis) next => (.asleep (m.clock + millis) (next ()), m)
  | .ask effect next =>
    let (answer, m) := m.perform effect
    m.proceed (next answer)

end Overseer.Scenario
