import Overseer.Channel.Basic
import Overseer.Device.Status
import Overseer.Locks
import Overseer.Status.Snapshot

/-!
Everything that a supervisor asks of its surroundings.

The channel to the worker, files, the backends of the locks, processes, time, the power supplies,
and the board that observers read.
-/

namespace Overseer

/-- The signals that stop a worker. -/
inductive StopSignal where
  /-- Lets the worker stop its tasks cleanly. -/
  | quit
  | kill
deriving DecidableEq, Repr

namespace StopSignal

def name : StopSignal → String
  | quit => "Quit"
  | kill => "Kill"

/-- The number of the signal. -/
def number : StopSignal → Nat
  | quit => 3
  | kill => 9

end StopSignal

/-- What looking for a process gives. -/
inductive Lookup where
  | found (pid : UInt32)
  | absent
  /-- The processes could not be listed. -/
  | failed
deriving DecidableEq, Repr

inductive Effect where
  | channel (op : ChannelOp)
  | file (op : FileOp)
  | lock (call : LockCall)
  /-- The first process of a name. -/
  | lookUp (name : String)
  /-- Sends a signal; tells whether it could be sent. -/
  | signal (pid : UInt32) (signal : StopSignal)
  /-- Starts a process of its own; tells whether it could be started. -/
  | spawn (program : Path) (args : List String) (dir : Path)
  | sleep (millis : Nat)
  /-- The time of day. -/
  | now
  | readPower
  /-- Tells observers of a change. -/
  | post (change : StatusChange)

@[reducible] def Effect.Answer : Effect → Type
  | channel op => op.Answer
  | file op => op.Answer
  | lock _ => Bool
  | lookUp _ => Lookup
  | signal _ _ => Bool
  | spawn _ _ _ => Bool
  | sleep _ => Unit
  | now => Timestamp
  | readPower => Power
  | post _ => Unit

@[reducible] def Effects : Interface := ⟨Effect, Effect.Answer⟩

/-- A program that acts on its surroundings. -/
@[reducible] def Action (α : Type) : Type := Program Effects α

namespace Action

def channel (op : ChannelOp) : Action op.Answer := Program.call (I := Effects) (.channel op)

/-- Asks the worker. -/
def request (r : Request) : Action (Except ChannelError r.Reply) := channel (.call r)

/-- Carries out a program over files. -/
def files {α : Type} (p : Program Files α) : Action α :=
  p.interpret fun op => Program.call (I := Effects) (.file op)

/-- Carries out a program over the locks' backends. -/
def locks {α : Type} (p : Program LockBackends α) : Action α :=
  p.interpret fun call => Program.call (I := Effects) (.lock call)

def lookUp (name : String) : Action Lookup := Program.call (I := Effects) (.lookUp name)

def signal (pid : UInt32) (s : StopSignal) : Action Bool :=
  Program.call (I := Effects) (.signal pid s)

def spawn (program : Path) (args : List String) (dir : Path) : Action Bool :=
  Program.call (I := Effects) (.spawn program args dir)

def sleep (millis : Nat) : Action Unit := Program.call (I := Effects) (.sleep millis)

def now : Action Timestamp := Program.call (I := Effects) .now

def readPower : Action Power := Program.call (I := Effects) .readPower

/-- Changes the snapshot and tells observers. -/
def post (s : Snapshot) (change : StatusChange) : Action Snapshot := do
  Program.call (I := Effects) (.post change)
  return change.apply s

end Action

end Overseer
