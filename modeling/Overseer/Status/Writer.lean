import Overseer.Status.Board
import Overseer.Status.Summary

/-!
Keeping the status file up to date.

The writer observes the board: it subscribes, writes the snapshot once, and then again after every
event that it receives or missed. It ends when the board is closed and nothing is left to receive.
-/

namespace Overseer

structure StatusWriter where
  path : Path
  /-- Its position in the sequence of events. -/
  position : Nat
  ended : Bool := false
deriving Repr

namespace StatusWriter

/-- Writes the snapshot that is on the board. -/
def write (path : Path) (board : Board) (now : Timestamp) : Program Files Unit :=
  (StatusSummary.ofSnapshot board.snapshot now).writeFile path

/-- Subscribes and writes for the first time. -/
def start (path : Path) (board : Board) (now : Timestamp) : Program Files StatusWriter := do
  write path board now
  return { path, position := board.subscribe }

/-- Receives once and acts on it; `none` while there is nothing to receive. -/
def step? (w : StatusWriter) (board : Board) (now : Timestamp) :
    Option (Program Files StatusWriter) :=
  if w.ended then none
  else
    match board.receive? w.position with
    | none => none
    | some (.closed, _) => some (return { w with ended := true })
    | some (_, position) => some do
      write w.path board now
      return { w with position }

/-- Receives all there is; `room` bounds how much. -/
def catchUpTo (board : Board) (now : Timestamp) : Nat → StatusWriter → Program Files StatusWriter
  | 0, w => return w
  | room + 1, w =>
    match w.step? board now with
    | none => return w
    | some action => do
      let w ← action
      catchUpTo board now room w

/-- Receives all there is. -/
def catchUp (w : StatusWriter) (board : Board) (now : Timestamp) : Program Files StatusWriter :=
  catchUpTo board now (board.recent.length + 2) w

/-- The last writes once the board is closed: the writer receives what is left, and then the
snapshot is written to the status file once more, whatever the writer did. -/
def finish (w : StatusWriter) (path : Path) (board : Board) (now : Timestamp) :
    Program Files Unit := do
  let _ ← w.catchUp board now
  write path board now

end StatusWriter

end Overseer
