import Overseer.Files.Tree
import Overseer.Status.Writer

/-!
A board with its observers.

Observers subscribe to the board at any time and receive what they have not received yet; one of
them may be the writer of the status file.
-/

namespace Overseer.Scenario

structure Observers where
  board : Board := {}
  /-- The position of each observer, in the order they subscribed. -/
  positions : List Nat := [0]
  /-- The revision of the snapshot that was last looked at. -/
  seen : Nat := 0
  tree : Tree := .empty

namespace Observers

/-- The time that files are written at. -/
def time : Timestamp := ⟨0⟩

/-- Applies a change so many times. -/
def post (o : Observers) (change : StatusChange) : Nat → Observers
  | 0 => o
  | times + 1 => { o with board := o.board.post change }.post change times

/-- A new observer: its number. -/
def subscribe (o : Observers) : Nat × Observers :=
  (o.positions.length, { o with positions := o.positions ++ [o.board.subscribe] })

/-- What an observer can receive now. -/
def drain (o : Observers) (observer : Nat) : List Reception × Observers :=
  match o.positions[observer]? with
  | none => ([], o)
  | some position =>
    let (receptions, position) := o.board.drain position
    (receptions, { o with positions := o.positions.set observer position })

/-- Whether the snapshot was marked since it was last looked at; a closed board marks nothing. -/
def changed (o : Observers) : Bool × Observers :=
  if o.board.closed then (false, o)
  else (o.seen < o.board.revision, { o with seen := o.board.revision })

/-- Writes the status file, and reads it back. -/
def file (o : Observers) (path : Path) : Option String × Observers :=
  let (_, tree) := o.tree.run (StatusWriter.write path o.board time)
  ((tree.readText path).toOption, { o with tree })

/-- Closes the board. -/
def close (o : Observers) : Observers := { o with board := o.board.close }

/-! ### The writer of the status file -/

/-- What the writer has made of the file since it was last looked at. -/
def rewritten (path : Path) (tree : Tree) : Option String × Tree :=
  ((tree.readText path).toOption, (tree.remove path).toOption.getD tree)

/-- Lets a writer follow groups of changes and then the closing of the board: what it makes of the
file at the start, after each group, and at the end. -/
def follow (path : Path) (board : Board) (groups : List (Board → Board)) : List (Option String) :=
  let (writer, tree) := Tree.empty.run (StatusWriter.start path board time)
  let (first, tree) := rewritten path tree
  let rec go (board : Board) (writer : StatusWriter) (tree : Tree) :
      List (Board → Board) → List (Option String)
    | [] => []
    | group :: rest =>
      let board := group board
      let (writer, tree) := tree.run (writer.catchUp board time)
      let (text, tree) := rewritten path tree
      text :: go board writer tree rest
  first :: go board writer tree (groups ++ [Board.close])

end Observers

end Overseer.Scenario
