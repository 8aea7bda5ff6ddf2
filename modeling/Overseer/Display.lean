import Overseer.Files.Operation
import Overseer.Text.Blank

/-!
Watching the display.

Each backlight is a directory with a power attribute, `0` for an unblanked one. The display is on
when any backlight is unblanked; without any readable attribute nothing is known, and at start-up
that counts as on. A monitor announces each reading that differs from the last known state.
-/

namespace Overseer.Display

/-- The attribute value of an unblanked backlight. -/
def unblanked : String := "0"

/-- The state that the power attributes of all backlights show. -/
def stateOf (readings : List (Except IoFault String)) : Option Bool :=
  let values := readings.filterMap (·.toOption)
  if values.isEmpty then none else some (values.any fun value => Text.trim value = unblanked)

/-- Reads the power attribute of every backlight. -/
def read (backlightDir : Path) : Program Files (Option Bool) := do
  match ← Files.list backlightDir with
  | .error _ => return none
  | .ok entries =>
    let readings ← Program.each (fun entry : Path => Files.readText (entry.join "bl_power")) entries
    return stateOf readings

/-- The state at start-up. -/
def initialState (reading : Option Bool) : Bool := reading.getD true

/-- The shortest time between two polls, in milliseconds. -/
def minPollInterval : Nat := 100

/-- The time between two polls. -/
def pollInterval (requested : Nat) : Nat := max requested minPollInterval

/-- Takes one reading into account: the known state from then on, and the switch to announce. -/
def observe (known : Bool) : Option Bool → Bool × Option Bool
  | none => (known, none)
  | some now => if now = known then (known, none) else (now, some now)

end Overseer.Display
