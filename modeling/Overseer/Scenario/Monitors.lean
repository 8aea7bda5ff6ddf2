import Overseer.Config.Watch
import Overseer.Display
import Overseer.Files.Tree

/-!
The monitors of the display and of the configuration on a timeline.

Both read files that change under them and announce what they find to a receiver, which may go away;
a monitor ends when it cannot announce something.
-/

namespace Overseer.Scenario

/-- How many announcements a receiver takes before it is gone; without a number it never is. -/
@[reducible] def Patience : Type := Option Nat

namespace Patience

/-- The receiver is gone after so many announcements. -/
def isGone (p : Patience) (announced : Nat) : Bool :=
  match p with
  | none => false
  | some limit => limit ≤ announced

end Patience

namespace DisplayMonitor

/-- The files as they are from a time on. -/
structure Change where
  time : Nat
  files : Tree

/-- The files at a time, and the changes that are still to come. -/
def filesAt (time : Nat) (tree : Tree) : List Change → Tree × List Change
  | [] => (tree, [])
  | c :: rest => if c.time ≤ time then filesAt time c.files rest else (tree, c :: rest)

structure Outcome where
  /-- The announced switches with their times. -/
  events : List (Nat × Bool)
  /-- The monitor ended by itself. -/
  stopped : Bool

/-- Polls at a time and so many more times after it, a period apart. -/
def pollFrom (dir : Path) (period : Nat) (patience : Patience) (time announced : Nat) (known : Bool)
    (tree : Tree) (changes : List Change) : Nat → Outcome
  | 0 => ⟨[], false⟩
  | polls + 1 =>
    let (tree, changes) := filesAt time tree changes
    match Display.observe known (tree.run (Display.read dir)).1 with
    | (known, none) =>
      pollFrom dir period patience (time + period) announced known tree changes polls
    | (known, some now) =>
      if patience.isGone announced then ⟨[], true⟩
      else
        let rest :=
          pollFrom dir period patience (time + period) (announced + 1) known tree changes polls
        { rest with events := (time, now) :: rest.events }

/-- Runs the monitor from time 0 until a time. -/
def run (dir : Path) (requested : Nat) (initial : Bool) (patience : Patience) (tree : Tree)
    (changes : List Change) (stop : Nat) : Outcome :=
  let period := Display.pollInterval requested
  pollFrom dir period patience 0 0 initial tree changes (stop / period + 1)

end DisplayMonitor

namespace ConfigWatcher

/-- What a step of the configuration file leads to. -/
inductive Outcome where
  | quiet
  | reloaded (config : Config)
  /-- The watcher has ended because it could not announce something. -/
  | stopped
  /-- The watcher ended at once, because there is no directory to watch. -/
  | closed
deriving Repr

/-- Follows the loads that changes of the file lead to; a removal leads to none. The receiver goes
away before the step with its number. -/
def follow (current : Config) (stopped : Bool) (patience : Patience) (step : Nat) :
    List (Option (Except ConfigError Config)) → List Outcome
  | [] => []
  | load :: rest =>
    let gone := patience.isGone step
    let (current, announced) :=
      match load with
      | none => (current, none)
      | some load => if stopped then (current, none) else Config.follow current load
    let stopped := stopped || (gone && announced.isSome)
    let outcome : Outcome :=
      if stopped then .stopped
      else
        match announced with
        | none => .quiet
        | some config => .reloaded config
    outcome :: follow current stopped patience (step + 1) rest

/-- The directory of the configuration file can be watched. -/
def isWatchable (file : Path) (tree : Tree) : Bool := file.parent?.any tree.isPresent

/-- Runs the watcher of a configuration file. -/
def run (file : Path) (tree : Tree) (current : Config) (patience : Patience)
    (loads : List (Option (Except ConfigError Config))) : List Outcome :=
  if isWatchable file tree then follow current false patience 0 loads
  else loads.map fun _ => .closed

end ConfigWatcher

end Overseer.Scenario
