import Overseer.Effects
import Overseer.Processes.Listing

/-!
A scripted process table.

Rows of process numbers and names, some of which are about to leave: each listing counts their
remaining listings down, and a row is gone from the listing at which its count reaches zero.
-/

namespace Overseer.Scenario

structure Roster where
  rows : List (UInt32 × String) := []
  /-- Process numbers with the listings they will still be counted in. -/
  leaving : List (UInt32 × Nat) := []
  /-- The number that the next process gets. -/
  nextPid : UInt32 := 1001
deriving Repr

namespace Roster

/-- Adds or replaces a row, keeping the rows in the order of their numbers. -/
def insertRow (pid : UInt32) (name : String) : List (UInt32 × String) → List (UInt32 × String)
  | [] => [(pid, name)]
  | row :: rest =>
    if pid < row.1 then (pid, name) :: row :: rest
    else if pid = row.1 then (pid, name) :: rest
    else row :: insertRow pid name rest

/-- The table with these rows and nobody about to leave. -/
def withRows (r : Roster) (rows : List (UInt32 × String)) : Roster :=
  { r with rows := rows.foldl (fun rows row => insertRow row.1 row.2 rows) [], leaving := [] }

/-- A new process; one that is invisible uses up a number but gets no row. -/
def start (r : Roster) (name : String) (visible : Bool) : Roster :=
  { r with
    rows := if visible then insertRow r.nextPid name r.rows else r.rows
    nextPid := r.nextPid + 1 }

/-- A process leaves after so many listings. -/
def leaveAfter (r : Roster) (pid : UInt32) (listings : Nat) : Roster :=
  { r with leaving := r.leaving ++ [(pid, listings)] }

/-- All processes leave, at once or after some listings. -/
def leaveAll (r : Roster) (listings : Nat) : Roster :=
  if listings = 0 then { r with rows := [] }
  else { r with leaving := r.leaving ++ r.rows.map fun row => (row.1, listings) }

/-- Counts the listings of those about to leave down, and removes those whose time has come. -/
def countDown (r : Roster) : Roster :=
  let counted := r.leaving.map fun (pid, left) => (pid, left - 1)
  let gone := (counted.filter (·.2 = 0)).map (·.1)
  { r with
    rows := r.rows.filter fun row => !gone.contains row.1
    leaving := counted.filter (·.2 ≠ 0) }

/-- The listing of all rows. -/
def listing (r : Roster) : String :=
  "USER PID PPID NAME\n" ++
    String.join (r.rows.map fun row => "u0_a1 " ++ toString row.1.toNat ++ " 1 " ++ row.2 ++ "\n")

/-- Looks a name up in a new listing. -/
def lookUp (r : Roster) (name : String) : Lookup × Roster :=
  let r := r.countDown
  (match Processes.findInListing r.listing name with
    | some pid => .found pid
    | none => .absent, r)

end Roster

end Overseer.Scenario
