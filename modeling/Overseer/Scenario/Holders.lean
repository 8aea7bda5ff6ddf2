import Overseer.Files.Tree
import Overseer.Instance

/-!
Supervisors that compete for lock files.

Each holder has a name and holds at most one lock; a lock is on the file that a path leads to,
however the path is spelled.
-/

namespace Overseer.Scenario

structure Holders where
  tree : Tree
  /-- The names of the holders with the places of the files they hold. -/
  held : List (String × Place) := []

namespace Holders

/-- The place of the file that a path leads to. -/
def placeOf (h : Holders) (path : Path) : Option Place :=
  ((h.tree.find path).toOption).map (·.place)

/-- Answers what taking a lock asks for. A lock that is taken is entered without a holder's name. -/
def perform (h : Holders) : (op : LockFileOp) → op.Answer × Holders
  | .file op =>
    let (answer, tree) := h.tree.perform op
    (answer, { h with tree })
  | .tryLock path =>
    match h.placeOf path with
    | none => (false, h)
    | some place =>
      if h.held.any (·.2 = place) then (false, h)
      else (true, { h with held := h.held ++ [("", place)] })

/-- Runs a program over lock files. -/
def run {α : Type} (h : Holders) : Program LockFiles α → α × Holders
  | .done a => (a, h)
  | .ask op next =>
    let (answer, h) := h.perform op
    h.run (next answer)

/-- A holder lets its lock go; tells whether it held one. -/
def release (h : Holders) (name : String) : Bool × Holders :=
  (h.held.any (·.1 = name), { h with held := h.held.filter (·.1 ≠ name) })

/-- A holder takes a lock; one it held before goes away once it has the new one. -/
def acquire (h : Holders) (pid : UInt32) (name : String) (path : Path) :
    Except InstanceError Unit × Holders :=
  match h.run (Instance.acquire pid path) with
  | (.error e, h) => (.error e, { h with held := h.held.filter (·.1 ≠ "") })
  | (.ok (), h) =>
    let others := h.held.filter (·.1 ≠ name)
    (.ok (), { h with held := others.map fun (holder, place) =>
      (if holder = "" then name else holder, place) })

/-- The text of a file. -/
def read (h : Holders) (path : Path) : Option String := (h.tree.readText path).toOption

end Holders

end Overseer.Scenario
