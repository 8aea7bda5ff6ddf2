import Overseer.Effects

/-!
Sending signals to process numbers.

A number beyond the range of process numbers names no process, so a signal to it is refused before
it is sent.
-/

namespace Overseer

/-- Why a signal was not sent. -/
inductive SignalError where
  | noProcess (signal : StopSignal) (pid : UInt32)
deriving DecidableEq, Repr

namespace SignalError

/-- The text of a refusal. -/
def message : SignalError → String
  | noProcess signal pid =>
    "failed to send " ++ signal.name ++ " to pid " ++ toString pid.toNat
      ++ ": ESRCH: No such process"

/-- A number that no process can have. -/
def outOfRange (pid : UInt32) : Bool := 0x80000000 ≤ pid.toNat

end SignalError

end Overseer
