import Overseer.Status.Snapshot

/-!
The board that observers read.

It holds the current snapshot and the last 64 events. Each observer has its own position in the
sequence of events; one that falls behind by more is told how many events it missed. When the board
is closed, observers receive what is left and then learn that it is closed.
-/

namespace Overseer

structure Board where
  snapshot : Snapshot := {}
  /-- How often observers of the snapshot were told to look again. -/
  revision : Nat := 0
  /-- How many events were sent in all. -/
  sent : Nat := 0
  /-- The last events, oldest first. -/
  recent : List StatusEvent := []
  closed : Bool := false
deriving BEq, Repr

/-- What an observer receives. -/
inductive Reception where
  | event (event : StatusEvent)
  /-- So many events were missed. -/
  | lagged (missed : Nat)
  | closed
deriving DecidableEq, Repr

namespace Board

/-- How many events are kept. -/
def capacity : Nat := 64

/-- Adds an event, dropping the oldest beyond the capacity. -/
def send (b : Board) (event : StatusEvent) : Board :=
  let all := b.recent ++ [event]
  { b with sent := b.sent + 1, recent := all.drop (all.length - capacity) }

/-- Applies a change and sends its event. -/
def post (b : Board) (change : StatusChange) : Board :=
  let marked :=
    { b with
      snapshot := change.apply b.snapshot
      revision := if change.marks b.snapshot then b.revision + 1 else b.revision }
  match change.event? b.snapshot with
  | none => marked
  | some event => marked.send event

/-- No more changes will come. -/
def close (b : Board) : Board := { b with closed := true }

/-- The position of an observer that wants the events from now on. -/
def subscribe (b : Board) : Nat := b.sent

/-- What the observer at a position receives next, and its position after that; nothing while no
event is left and the board is open. -/
def receive? (b : Board) (position : Nat) : Option (Reception × Nat) :=
  let oldest := b.sent - b.recent.length
  if position < oldest then some (.lagged (oldest - position), oldest)
  else
    match b.recent[position - oldest]? with
    | some event => some (.event event, position + 1)
    | none => if b.closed then some (.closed, position) else none

/-- Everything that can be received from a position on, ending at a closed board; `room` bounds how
much. -/
def receiveAll (b : Board) : Nat → Nat → List Reception × Nat
  | 0, position => ([], position)
  | room + 1, position =>
    match b.receive? position with
    | none => ([], position)
    | some (.closed, position) => ([.closed], position)
    | some (reception, position) =>
      let (more, position) := b.receiveAll room position
      (reception :: more, position)

/-- Everything an observer can receive now. -/
def drain (b : Board) (position : Nat) : List Reception × Nat :=
  b.receiveAll (b.recent.length + 2) position

end Board

end Overseer
