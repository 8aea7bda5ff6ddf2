import Overseer.Files.Operation
import Overseer.Status.Snapshot
import Overseer.Toml.Field
import Overseer.Toml.Reader

/-!
The status file.

A summary of the snapshot, written as a TOML document for observers outside the process. Lines for
what is absent are left out. Reading the text gives the summary back.
-/

namespace Overseer

structure StatusSummary where
  version : String
  setup : SetupStatus
  computing : Bool
  taskSuspendReason : Option SuspendReason
  networkSuspendReason : Option SuspendReason
  tasks : Nat
  projects : Nat
  transfers : Nat
  notices : Nat
  /-- When the last full read was published. -/
  lastUpdate : Option String
  /-- When this summary was made. -/
  writtenAt : String
deriving DecidableEq, Repr

namespace StatusSummary

/-- The version of the supervisor. -/
def currentVersion : String := "0.1.0"

/-- The summary of a snapshot at a time. -/
def ofSnapshot (s : Snapshot) (now : Timestamp) : StatusSummary where
  version := currentVersion
  setup := s.setup
  computing := s.computing
  taskSuspendReason := s.worker.map (·.status.taskSuspendReason)
  networkSuspendReason := s.worker.map (·.status.networkSuspendReason)
  tasks := (s.worker.map (·.tasks.length)).getD 0
  projects := (s.worker.map (·.projects.length)).getD 0
  transfers := (s.worker.map (·.transfers.length)).getD 0
  notices := (s.worker.map (·.notices.length)).getD 0
  lastUpdate := s.updatedAt.map Timestamp.text
  writtenAt := now.text

/-! ### Writing -/

/-- One line: a name and the text of its value. -/
def line (name value : String) : String := name ++ " = " ++ value ++ "\n"

/-- A line for what is there, none for what is absent. -/
def line? {α : Type} (name : String) (text : α → String) : Option α → String
  | none => ""
  | some a => line name (text a)

/-- A string value. Versions, words and times need no escapes. -/
def stringText (s : String) : String := "\"" ++ s ++ "\""

def boolText (b : Bool) : String := if b then "true" else "false"

def reasonText (r : SuspendReason) : String := toString r.code.toInt

/-- The text of a summary. -/
def text (s : StatusSummary) : String :=
  line "version" (stringText s.version)
    ++ line "setup_status" (stringText s.setup.word)
    ++ line "computing" (boolText s.computing)
    ++ line? "task_suspend_reason" reasonText s.taskSuspendReason
    ++ line? "network_suspend_reason" reasonText s.networkSuspendReason
    ++ line "tasks" (toString s.tasks)
    ++ line "projects" (toString s.projects)
    ++ line "transfers" (toString s.transfers)
    ++ line "notices" (toString s.notices)
    ++ line? "last_update" stringText s.lastUpdate
    ++ line "written_at" (stringText s.writtenAt)

/-! ### Reading -/

open Toml (Value Entries)

/-- A count. -/
def count? (v : Value) : Option Nat := v.below? UInt64.size

/-- A reason by its code. -/
def reason? : Value → Option SuspendReason
  | .integer n =>
    if -0x80000000 ≤ n ∧ n < 0x80000000 then some (SuspendReason.ofCode (Int32.ofInt n))
    else none
  | _ => none

/-- A setup status: its word, or a table whose only entry has the word for its name and is empty. -/
def setup? : Value → Option SetupStatus
  | .string word => SetupStatus.ofWord? word
  | .table _ [(word, .table _ [])] => SetupStatus.ofWord? word
  | .table _ [(word, .array _ [])] => SetupStatus.ofWord? word
  | _ => none

/-- The summary that a document's entries give. -/
def ofEntries? (e : Entries) : Option StatusSummary := do
  return {
    version := ← e.required "version" Value.text?
    setup := ← e.required "setup_status" setup?
    computing := ← e.required "computing" Value.bool?
    taskSuspendReason := ← e.optional "task_suspend_reason" reason?
    networkSuspendReason := ← e.optional "network_suspend_reason" reason?
    tasks := ← e.required "tasks" count?
    projects := ← e.required "projects" count?
    transfers := ← e.required "transfers" count?
    notices := ← e.required "notices" count?
    lastUpdate := ← e.optional "last_update" Value.text?
    writtenAt := ← e.required "written_at" Value.text? }

/-- The summary that a text gives. -/
def ofText? (text : String) : Option StatusSummary :=
  (Toml.read text).bind fun t => ofEntries? t.entries

/-! ### The file -/

/-- Writes a summary to a file, making the directory it goes to. What cannot be written is left as
it is. -/
def writeFile (path : Path) (s : StatusSummary) : Program Files Unit := do
  let made ←
    match path.parent? with
    | none => pure (.ok ())
    | some parent => Files.createDirectories parent
  match made with
  | .error _ => return ()
  | .ok () =>
    let _ ← Files.write path s.text.toUTF8
    return ()

end StatusSummary

end Overseer
