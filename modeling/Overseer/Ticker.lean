/-!
When regular ticks are due.

A ticker is due at one time after the other, a period apart. A tick that begins late moves the
following ones: the next is due one period after it began.
-/

namespace Overseer

/-- Times are in milliseconds. -/
structure Ticker where
  due : Nat
  period : Nat
deriving DecidableEq, Repr

namespace Ticker

/-- A tick that begins this much after it was due, or less, is in time. -/
def tolerance : Nat := 5

/-- First due at a given time. -/
def startingAt (due period : Nat) : Ticker := ⟨due, period⟩

/-- The ticker after a tick that began at a time. -/
def fired (t : Ticker) (now : Nat) : Ticker :=
  { t with due := if t.due + tolerance < now then now + t.period else t.due + t.period }

end Ticker

end Overseer
