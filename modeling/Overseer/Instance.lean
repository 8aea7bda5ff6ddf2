import Overseer.Files.Operation

/-!
One supervisor for each data directory.

Two supervisors would fight over installing, starting and stopping the same worker. The first takes
an exclusive lock on the lock file, empties it and writes its process number into it; others are
refused and leave the file as it is. The lock goes away with its holder.
-/

namespace Overseer

/-- Why the lock was not taken. -/
inductive InstanceError where
  | alreadyRunning (path : Path)
  | io (path : Path) (fault : IoFault)
deriving Repr

/-- The text of a refusal. -/
def InstanceError.message : InstanceError → String
  | alreadyRunning path => "another supervisor holds " ++ path.text
  | io path _ => "failed to open lock file " ++ path.text

/-- The name of a refusal's kind. -/
def InstanceError.kind : InstanceError → String
  | alreadyRunning _ => "AlreadyRunning"
  | io _ _ => "Io"

/-- What taking the lock asks for: files, and exclusive locks on them. -/
inductive LockFileOp where
  | file (op : FileOp)
  /-- Takes the exclusive lock on a file that can be opened; tells whether it was free. -/
  | tryLock (path : Path)

@[reducible] def LockFileOp.Answer : LockFileOp → Type
  | file op => op.Answer
  | tryLock _ => Bool

@[reducible] def LockFiles : Interface := ⟨LockFileOp, LockFileOp.Answer⟩

namespace Instance

/-- The process number as a text. -/
def number (pid : UInt32) : String := toString pid.toNat

/-- What the holder writes into the lock file. -/
def stamp (pid : UInt32) : String := number pid ++ "\n"

def file (op : FileOp) : Program LockFiles op.Answer := Program.call (I := LockFiles) (.file op)

/-- Replaces what is in the lock file. The line is written in two parts, the number and its end. -/
def record (pid : UInt32) (path : Path) : Program LockFiles (Except IoFault Unit) := do
  match ← file (.truncate path) with
  | .error fault => return .error fault
  | .ok () =>
    match ← file (.append path (number pid).toUTF8) with
    | .error fault => return .error fault
    | .ok () => file (.append path "\n".toUTF8)

/-- Takes the lock without waiting. Nothing is written before the lock is held, because the number
in the file belongs to its holder. -/
def acquire (pid : UInt32) (path : Path) : Program LockFiles (Except InstanceError Unit) := do
  match ← file (.openForUpdate path) with
  | .error fault => return .error (.io path fault)
  | .ok () =>
    if ← Program.call (I := LockFiles) (.tryLock path) then
      match ← record pid path with
      | .error fault => return .error (.io path fault)
      | .ok () => return .ok ()
    else return .error (.alreadyRunning path)

end Instance

end Overseer
