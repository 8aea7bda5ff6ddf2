/-!
Full or minimal reads.

With the screen on every read is full. With the screen off, `threshold` minimal reads come between
full ones. The counter of skipped full reads never passes the threshold.
-/

namespace Overseer

inductive ReadKind where
  /-- The overall status only. -/
  | minimal
  /-- Everything, published as a whole. -/
  | full
deriving DecidableEq, Repr

def ReadKind.name : ReadKind → String
  | minimal => "minimal"
  | full => "full"

structure Cadence where
  screenOn : Bool
  /-- Full reads skipped since the last one that was reported. -/
  skips : Nat
  threshold : Nat
deriving DecidableEq, Repr

namespace Cadence

def start (screenOn : Bool) (threshold : Nat) : Cadence := ⟨screenOn, 0, threshold⟩

/-- The kind of the coming read; a minimal one counts as one skipped full read. -/
def next (c : Cadence) (force : Bool) : ReadKind × Cadence :=
  if force || c.screenOn then (.full, c)
  else if c.skips < c.threshold then (.minimal, { c with skips := c.skips + 1 })
  else (.full, c)

/-- The device report of a read of this kind went through. -/
def reported (c : Cadence) (kind : ReadKind) : Cadence :=
  if kind = .full ∧ !c.screenOn then { c with skips := 0 } else c

/-- Switching the screen off makes the next read full, so that the worker learns of it promptly. -/
def setScreen (c : Cadence) (on : Bool) : Cadence :=
  { c with screenOn := on, skips := if on then c.skips else c.threshold }

def setThreshold (c : Cadence) (threshold : Nat) : Cadence :=
  { c with threshold, skips := min c.skips threshold }

end Cadence

end Overseer
