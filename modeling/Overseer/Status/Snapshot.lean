import Overseer.Timestamp
import Overseer.Worker.Report

/-!
What observers see.

A snapshot is one consistent view; it moves only by `StatusChange`s, and each change says which
event it announces. Setup and computing changes to the value that is already there change nothing.
-/

namespace Overseer

/-- How ready the worker is. -/
inductive SetupStatus where
  /-- Setup has not completed yet, or runs again. -/
  | launching
  /-- The worker is installed, running and connected. -/
  | available
  /-- The last attempt failed; the next tick tries again. -/
  | error
deriving DecidableEq, Repr

namespace SetupStatus

def word : SetupStatus → String
  | launching => "launching"
  | available => "available"
  | error => "error"

def ofWord? : String → Option SetupStatus
  | "launching" => some launching
  | "available" => some available
  | "error" => some error
  | _ => none

end SetupStatus

structure Snapshot where
  setup : SetupStatus := .launching
  /-- The last successful full read. -/
  worker : Option FullRead := none
  preferences : Option Preferences := none
  /-- Whether the worker's suspend reason allows computing. -/
  computing : Bool := false
  /-- When the worker's part was published. -/
  updatedAt : Option Timestamp := none
deriving BEq, Repr

/-- The number of the last notice held, 0 before the first full read. -/
def Snapshot.latestSeqno (s : Snapshot) : UInt64 :=
  match s.worker with
  | none => 0
  | some read => read.latestSeqno

/-- The notices held. -/
def Snapshot.notices (s : Snapshot) : List Notice :=
  match s.worker with
  | none => []
  | some read => read.notices

inductive StatusEvent where
  /-- A full read was published. -/
  | updated
  | setupChanged (status : SetupStatus)
  /-- So many notices arrived with the last full read. -/
  | newNotices (count : Nat)
deriving DecidableEq, Repr

inductive StatusChange where
  | publish (read : FullRead) (time : Timestamp)
  | setup (status : SetupStatus)
  | preferences (preferences : Preferences)
  | computing (computing : Bool)
  | notices (count : Nat)

namespace StatusChange

/-- The snapshot after a change. -/
def apply (s : Snapshot) : StatusChange → Snapshot
  | publish read time => { s with worker := some read, updatedAt := some time }
  | setup status => { s with setup := status }
  | preferences p => { s with preferences := some p }
  | computing b => { s with computing := b }
  | notices _ => s

/-- The event that a change announces. -/
def event? (s : Snapshot) : StatusChange → Option StatusEvent
  | publish _ _ => some .updated
  | setup status => if s.setup = status then none else some (.setupChanged status)
  | preferences _ => none
  | computing _ => none
  | notices count => if 0 < count then some (.newNotices count) else none

/-- Whether observers of the value are told that it may have changed. -/
def marks (s : Snapshot) : StatusChange → Bool
  | publish _ _ => true
  | setup status => s.setup ≠ status
  | preferences _ => true
  | computing b => s.computing ≠ b
  | notices _ => false

end StatusChange

end Overseer
