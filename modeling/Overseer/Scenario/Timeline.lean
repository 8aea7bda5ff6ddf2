import Overseer.Poller
import Overseer.Scenario.World

/-!
A poller on a timeline.

Commands arrive at given times and wait in a queue while a tick is in progress; the ticker comes due
at its own times. At the end of the timeline the queue is closed, and the poller stops once it has
handled what is left in it. A command that arrives after the poller stopped is refused.
-/

namespace Overseer.Scenario

/-- A command with its place in the script and its time. -/
structure Arrival where
  index : Nat
  time : Nat
  command : Command

/-- The poller's end. -/
structure Ending where
  poller : Poller
  world : World
  /-- The commands that the poller did not take. -/
  left : List Arrival

namespace Timeline

/-- Lets the session handle a wake in the world; `none` once it is told to stop. -/
def wake (s : Session) (w : World) (what : Wake) : Option (Session × World) :=
  (s.handle w.clock what).map w.run

/-- What happens next: the ticker, the first command, or the end of the queue; of two that are ready
at the same time the ticker comes last. -/
inductive Next where
  | tick
  | command (arrival : Arrival) (rest : List Arrival)
  | closed

def next (stop : Nat) (s : Session) (w : World) (arrivals : List Arrival) : Next :=
  let due := max w.clock s.ticker.due
  match arrivals with
  | arrival :: rest => if due < max w.clock arrival.time then .tick else .command arrival rest
  | [] => if due < max w.clock stop then .tick else .closed

/-- Runs until the queue is closed at `stop` and empty, or the poller is told to stop. `room` bounds
the count of wakes. -/
def runFrom (stop : Nat) : Nat → Session → World → List Arrival → Session × World × List Arrival
  | 0, s, w, arrivals => (s, w, arrivals)
  | room + 1, s, w, arrivals =>
    match next stop s w arrivals with
    | .closed => (s, w.advanceTo stop, [])
    | .tick =>
      let w := w.advanceTo s.ticker.due
      match wake s w .tick with
      | none => (s, w, arrivals)
      | some (s, w) => runFrom stop room s w arrivals
    | .command arrival rest =>
      let w := w.advanceTo arrival.time
      match wake s w (.command arrival.command) with
      | none => (s, w, rest)
      | some (s, w) => runFrom stop room s w rest

/-- A bound on the wakes of a run: ticks are at least `Config.minInterval` apart, and each command
may bring one forward. -/
def roomFor (stop : Nat) (arrivals : List Arrival) : Nat :=
  stop / Config.minInterval + 2 * arrivals.length + 3

/-- Runs a poller from the world's present time on. -/
def run (poller : Poller) (w : World) (arrivals : List Arrival) (stop : Nat) : Ending :=
  let (s, w, left) := runFrom stop (roomFor stop arrivals) (.start poller w.clock) w arrivals
  let (poller, w) := w.run s.poller.shutdown
  ⟨poller, w, left⟩

end Timeline

/-- The commands that arrived only after the poller had stopped. -/
def Ending.refused (e : Ending) : List Nat :=
  (e.left.filter fun arrival => e.world.clock < arrival.time).map (·.index)

end Overseer.Scenario
