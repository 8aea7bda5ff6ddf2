import Overseer.Scenario.Machine
import Overseer.Status.Writer
import Overseer.Supervisor

/-!
A supervisor that runs on a machine.

The supervisor does at once whatever it can: it handles commands and ticks, goes on with an action
that has slept long enough, looks at the display, and keeps the status file up to date. Time passes
only while someone waits for something, and then in steps to the next time at which something is
due.
-/

namespace Overseer.Scenario

/-- What the poller is at. -/
inductive Activity where
  | waiting (session : Session)
  /-- Sleeps in an action. -/
  | working (till : Nat) (rest : Action Session)
  /-- Sleeps on the way to its end. -/
  | stopping (till : Nat) (rest : Action Poller)

/-- A supervisor that is running. -/
structure Live where
  startup : Startup
  activity : Activity
  /-- Commands that were not handled yet, in order. -/
  commands : List Command := []
  /-- The configuration of the last accepted load. -/
  config : Config
  /-- The last known state of the display. -/
  displayOn : Bool
  /-- When the display is looked at next. -/
  nextLook : Nat
  writer : StatusWriter

structure Service where
  machine : Machine
  /-- The data directory. -/
  home : Path
  live : Option Live := none
  /-- How the last supervisor ended. -/
  ending : Option (Except StartError Unit) := none
  /-- The process number of the last supervisor. -/
  pid : UInt32 := 0
  /-- How many requests to the worker were waited for already. -/
  awaited : Nat := 0

namespace Service

def clock (s : Service) : Nat := s.machine.clock

/-- The time of day. -/
def now (s : Service) : Timestamp := ⟨s.clock * 1000000⟩

def platform : Platform := .ofArch "x86_64"

def host : HostIdentity := .ofSystem "Linux" "host" "6.1" "x86_64" "12"

/-! ### Starting -/

/-- Answers what a start asks for; the lock is held by the supervisor that is running. -/
def performStart (s : Service) : (op : LockFileOp) → op.Answer × Service
  | .file op =>
    let (answer, tree) := s.machine.tree.perform op
    (answer, { s with machine := { s.machine with tree } })
  | .tryLock _ => (s.live.isNone, s)

def runStart {α : Type} (s : Service) : Program LockFiles α → α × Service
  | .done a => (a, s)
  | .ask op next =>
    let (answer, s) := s.performStart op
    s.runStart (next answer)

/-- Tries to start a supervisor under a new process number. -/
def tryStart (s : Service) : Except StartError Startup × UInt32 × Service :=
  let (pid, machine) := s.machine.takePid
  let (result, s) := { s with machine }.runStart (Startup.run pid (some s.home))
  (result, pid, s)

/-- A supervisor begins to run. -/
def begin (s : Service) (startup : Startup) : Service :=
  let machine :=
    { s.machine with
      socket := {}
      board := {}
      devices := startup.config.device
      wakeLock := startup.wakeLock }
  let (writer, machine) := machine.onFiles
    (StatusWriter.start (DataDir.statusFile startup.dir) machine.board s.now)
  let live : Live := {
    startup
    activity := .waiting (.start (startup.poller platform host) s.clock)
    config := startup.config
    displayOn := startup.displayOn
    nextLook := s.clock
    writer }
  { s with machine, live := some live, ending := none }

def start (s : Service) : Service :=
  match s.tryStart with
  | (.error e, pid, s) => { s with pid, ending := some (.error e) }
  | (.ok startup, pid, s) => { s with pid }.begin startup

/-! ### Running -/

/-- Lets the writer of the status file receive what there is. -/
def report (s : Service) (live : Live) : Service :=
  let (writer, machine) := s.machine.onFiles (live.writer.catchUp s.machine.board s.now)
  { s with machine, live := some { live with writer } }

/-- The supervisor has stopped: the board is closed and the status written a last time. -/
def finish (s : Service) (live : Live) : Service :=
  let board := s.machine.board.close
  let (_, machine) := { s.machine with board }.onFiles
    (live.writer.finish (DataDir.statusFile live.startup.dir) board s.now)
  { s with machine, live := none, ending := some (.ok ()) }

/-- Goes on with an action of the poller. -/
def work (s : Service) (live : Live) (action : Action Session) : Service :=
  match s.machine.proceed action with
  | (.finished session, machine) =>
    { s with machine }.report { live with activity := .waiting session }
  | (.asleep till rest, machine) =>
    { s with machine }.report { live with activity := .working till rest }

/-- Goes on with the poller's last action. -/
def stop (s : Service) (live : Live) (action : Action Poller) : Service :=
  match s.machine.proceed action with
  | (.finished _, machine) => { s with machine }.finish live
  | (.asleep till rest, machine) =>
    { s with machine }.report { live with activity := .stopping till rest }

/-- Handles a wake. -/
def wake (s : Service) (live : Live) (session : Session) (what : Wake) : Service :=
  match session.handle s.clock what with
  | some action => s.work live action
  | none => s.stop live session.poller.shutdown

/-- Looks at the display. -/
def look (s : Service) (live : Live) : Service :=
  let settings := live.startup.config.display
  let (state, machine) := s.machine.onFiles (Display.read settings.backlightDir)
  let (displayOn, switched) := Display.observe live.displayOn state
  { s with
    machine
    live := some { live with
      displayOn
      nextLook := live.nextLook + Display.pollInterval settings.pollIntervalMs
      commands :=
        live.commands ++ switched.toList.map fun on => (Event.displayChanged on).command } }

/-- Does one thing that can be done now, if there is any. -/
def act? (s : Service) : Option Service :=
  match s.live with
  | none => none
  | some live =>
    if live.nextLook ≤ s.clock then some (s.look live)
    else
      match live.activity, live.commands with
      | .working till rest, _ => if till ≤ s.clock then some (s.work live rest) else none
      | .stopping till rest, _ => if till ≤ s.clock then some (s.stop live rest) else none
      | .waiting session, command :: commands =>
        some (s.wake { live with commands } session (.command command))
      | .waiting session, [] =>
        if session.ticker.due ≤ s.clock then some (s.wake live session .tick) else none

/-- Does what can be done now; `room` bounds how much. -/
def actUpTo : Nat → Service → Service
  | 0, s => s
  | room + 1, s =>
    match s.act? with
    | none => s
    | some s => actUpTo room s

/-- A bound on what is done at one time. -/
def room : Nat := 10000

/-- Does what can be done now. -/
def settle (s : Service) : Service := actUpTo room s

/-- The next time at which something is due. -/
def nextTime? (s : Service) : Option Nat :=
  s.live.map fun live =>
    match live.activity with
    | .waiting session => min live.nextLook session.ticker.due
    | .working till _ => min live.nextLook till
    | .stopping till _ => min live.nextLook till

/-! ### Waiting -/

/-- The longest time to wait for something, in milliseconds. -/
def patience : Nat := 8000

/-- Waits for something until a deadline; `room` bounds the number of times at which it looks. -/
def waitUntil {α : Type} (deadline : Nat) (ready : Service → Option α) :
    Nat → Service → Option α × Service
  | 0, s => (none, s)
  | room + 1, s =>
    match ready s, s.nextTime? with
    | some a, _ => (some a, s)
    | none, none => (none, s)
    | none, some time =>
      if time ≤ deadline then
        waitUntil deadline ready room { s with machine := s.machine.advanceTo time }.settle
      else (none, s)

/-- Waits for something. -/
def wait {α : Type} (s : Service) (ready : Service → Option α) : Option α × Service :=
  waitUntil (s.clock + patience) ready (patience + 1) s.settle

/-- The next requests to the worker, once there are so many. -/
def awaitRequests (s : Service) (count : Nat) : Option (List ByteArray) × Service :=
  match s.wait fun s =>
    let requests := s.machine.server.received.reverse.drop s.awaited
    if count ≤ requests.length then some (requests.take count) else none with
  | (some requests, s) => (some requests, { s with awaited := s.awaited + count })
  | (none, s) => (none, s)

/-- The text of a file, once it is as wanted. -/
def awaitText (s : Service) (path : Path) (wanted : String → Bool) : Option String × Service :=
  s.wait fun s => (s.machine.tree.readText path).toOption.filter wanted

/-- How the supervisor ended, once it has. -/
def awaitEnd (s : Service) : Option (Except StartError Unit) × Service :=
  s.wait fun s => if s.live.isNone then s.ending else none

/-! ### From outside -/

/-- Something happens to the supervisor. -/
def notify (s : Service) (event : Event) : Service :=
  let live := s.live.map fun live => { live with commands := live.commands ++ [event.command] }
  { s with live }.settle

/-- The files are as given from now on. If the configuration file is there, it may have changed. -/
def withFiles (s : Service) (tree : Tree) : Service :=
  let s := { s with machine := { s.machine with tree } }
  match s.live with
  | none => s
  | some live =>
    let file := DataDir.configFile live.startup.dir
    if s.machine.tree.isPresent file then
      let (loaded, machine) := s.machine.onFiles (Config.load file)
      let (config, announced) := Config.follow live.config loaded
      let s := { s with machine, live := some { live with config } }
      match announced with
      | none => s
      | some config => s.notify (.configReloaded config)
    else s

/-- Changes the server of the worker. -/
def onServer (s : Service) (change : SocketServer → SocketServer) : Service :=
  { s with machine := { s.machine with server := change s.machine.server } }

/-- The permission bits of a new socket. -/
def socketMode : Nat := 0o755

/-- The worker begins to listen on a socket, which is a file too. -/
def listen (s : Service) (path : Path) : Service :=
  let (_, machine) := s.machine.onFiles do
    match path.parent? with
    | some dir => let _ ← Files.createDirectories dir
    | none => pure ()
    let _ ← Files.write path .empty
    Files.setMode path socketMode
  let address := (machine.tree.find path).toOption.map (·.place)
  { s with machine }.onServer fun server => { server with address }

/-- Another supervisor is started beside; how it ends, if it does. -/
def second (s : Service) : Option StartError × Service :=
  match s.tryStart with
  | (.error e, _, s) => (some e, s)
  | (.ok _, _, s) => (none, s)

end Service

/-- The exit code of a supervisor and the first line it leaves on standard error. -/
def exitReport : Except StartError Unit → Nat × String
  | .ok () => (0, "")
  | .error e => (1, "Error: " ++ e.message)

end Overseer.Scenario
