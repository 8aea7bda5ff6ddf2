import Overseer.Decimal.Nearest
import Overseer.Text.Blank

/-!
Finding a process in a listing.

The first line of a listing names its columns, one of them `PID`; each further line is a process. A
process is found by a word that equals its name, wherever in the line it stands.
-/

namespace Overseer.Processes

/-- A 32-bit process number: decimal digits after an optional plus sign. -/
def readPid (word : String) : Option UInt32 :=
  let digits :=
    match word.toList with
    | '+' :: rest => rest
    | rest => rest
  (Decimal.ofDigits? digits).bind fun n => if n < UInt32.size then some (UInt32.ofNat n) else none

/-- The position of the first `PID` among the words of the first line. -/
def pidColumn? (header : String) : Option Nat := (Text.words header).idxOf? "PID"

/-- A line with the name as one of its words. -/
def isNamed (name row : String) : Bool := (Text.words row).contains name

/-- The number in the first line that names the process; none if that line has no number where the
column is. -/
def findInListing (listing name : String) : Option UInt32 :=
  match Text.lines listing with
  | header :: rows@(_ :: _) => do
    let column ← pidColumn? header
    let row ← rows.find? (isNamed name)
    let word ← (Text.words row)[column]?
    readPid word
  | _ => none

end Overseer.Processes
