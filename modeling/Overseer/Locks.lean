import Overseer.Files.Operation

/-!
Wake and network locks.

Both locks follow the worker: they are held while it computes. The wanted state is applied again and
again, so a lock calls its backend only when the state changes, and a failed call leaves the
recorded state as it was, to be tried again.
-/

namespace Overseer

inductive PowerLock where
  | wake
  | network
deriving DecidableEq, Repr

/-- The name of a lock. -/
def PowerLock.name : PowerLock → String
  | wake => "wake"
  | network => "network"

/-- A call of a lock's backend. -/
structure LockCall where
  lock : PowerLock
  /-- Acquire, rather than release. -/
  acquire : Bool
deriving DecidableEq, Repr

namespace LockCall

/-- All calls there are. -/
def all : List LockCall := [⟨.wake, true⟩, ⟨.wake, false⟩, ⟨.network, true⟩, ⟨.network, false⟩]

def name (call : LockCall) : String :=
  call.lock.name ++ (if call.acquire then " acquire" else " release")

/-- The call of a name. -/
def ofName? (name : String) : Option LockCall := all.find? (·.name = name)

end LockCall

/-- The backends of both locks; a call tells whether it succeeded. -/
@[reducible] def LockBackends : Interface := ⟨LockCall, fun _ => Bool⟩

/-- Brings one lock from the recorded state to the wanted one; gives the state recorded from then
on. -/
def PowerLock.set (lock : PowerLock) (held wanted : Bool) : Program LockBackends Bool :=
  if wanted = held then return held
  else do
    let succeeded ← Program.call (I := LockBackends) ⟨lock, wanted⟩
    return if succeeded then wanted else held

/-- The recorded state of both locks. -/
structure PowerLocks where
  wake : Bool := false
  network : Bool := false
deriving DecidableEq, Repr

namespace PowerLocks

/-- Moves both locks to the wanted state, the network lock first. -/
def apply (locks : PowerLocks) (wanted : Bool) : Program LockBackends PowerLocks := do
  let network ← PowerLock.network.set locks.network wanted
  let wake ← PowerLock.wake.set locks.wake wanted
  return { wake, network }

/-- Releases whatever is held. -/
def releaseAll (locks : PowerLocks) : Program LockBackends PowerLocks := locks.apply false

end PowerLocks

/-- The files that stand for the kernel's wake lock: writing the tag to one acquires it, to the
other releases it. -/
structure WakeLockFiles where
  acquireFile : Path
  releaseFile : Path
  tag : String

/-- Carries out a lock call with files. The network lock has no counterpart outside, so its calls
always succeed. -/
def WakeLockFiles.perform (w : WakeLockFiles) (call : LockCall) : Program Files Bool :=
  match call.lock with
  | .network => return true
  | .wake => do
    let written ← Files.write (if call.acquire then w.acquireFile else w.releaseFile) w.tag.toUTF8
    return written.isOk

end Overseer
