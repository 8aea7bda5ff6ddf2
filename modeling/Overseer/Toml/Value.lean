/-!
TOML values.

Tables carry how they came to be, which decides what may still be added to them: an implicit table
was only mentioned on the way to another one, a dotted one was made by a dotted key. An array grows
when it was opened by a header in double brackets.
-/

namespace Overseer.Toml

/-- How a table came to be. -/
structure Origin where
  implicit : Bool
  dotted : Bool
  /-- Written between braces, and complete with that. -/
  inline : Bool
deriving DecidableEq, Repr

/-- A TOML value. No use is made of what a date says, so none is kept. -/
inductive Value where
  | string (text : String)
  | integer (n : Int)
  | real (x : Float)
  | bool (b : Bool)
  | datetime
  | array (grows : Bool) (items : List Value)
  | table (origin : Origin) (entries : List (String × Value))
deriving Inhabited

/-- The entries of a table, each name once. -/
@[reducible] def Entries : Type := List (String × Value)

/-- A table with its origin. -/
structure Table where
  origin : Origin
  entries : Entries

def Table.toValue (t : Table) : Value := .table t.origin t.entries

/-- Opened by a header of its own, or the document itself. -/
def Origin.explicit : Origin := ⟨false, false, false⟩

namespace Entries

/-- Replaces the value of a name, or adds the name at the end. -/
def put (name : String) (v : Value) : Entries → Entries
  | [] => [(name, v)]
  | entry :: rest => if entry.1 = name then (name, v) :: rest else entry :: put name v rest

/-- The entries without a name. -/
def erase (name : String) (entries : Entries) : Entries := entries.filter (·.1 ≠ name)

end Entries

end Overseer.Toml
