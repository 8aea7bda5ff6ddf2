import Overseer.Json.Value

/-!
Loosely reading a JSON value.

Documents that are written by hand leave out what they do not need. So a member that is absent reads
as null, and a value of another kind than the one asked for reads as the empty value of that kind.
Records whose form is settled are read with `Record` instead.
-/

namespace Overseer.Json.Value

/-- A member of an object. -/
def get (v : Value) (name : String) : Value :=
  match v with
  | .object members => (members.lookup (some name)).getD .null
  | _ => .null

/-- Whether an object has a member of a name. -/
def has (v : Value) (name : String) : Bool :=
  match v with
  | .object members => (members.lookup (some name)).isSome
  | _ => false

def isNull : Value → Bool
  | .null => true
  | _ => false

def asText : Value → String
  | .string s => s.getD ""
  | _ => ""

def asNat : Value → Nat
  | .number (.natural n) => n
  | _ => 0

def asInt : Value → Int
  | .number (.natural n) => n
  | .number (.negative n) => -n
  | _ => 0

def asBool : Value → Bool
  | .bool b => b
  | _ => false

def asList : Value → List Value
  | .array items => items
  | _ => []

def asTexts (v : Value) : List String := v.asList.map asText

/-- The members of an object. -/
def asMembers : Value → List (String × Value)
  | .object members => members.map fun m => (m.1.getD "", m.2)
  | _ => []

/-- Nothing for null. -/
def given {α : Type} (v : Value) (read : Value → α) : Option α :=
  if v.isNull then none else some (read v)

/-! ### Members of a kind -/

def textAt (v : Value) (name : String) : String := (v.get name).asText

def natAt (v : Value) (name : String) : Nat := (v.get name).asNat

def boolAt (v : Value) (name : String) : Bool := (v.get name).asBool

def listAt (v : Value) (name : String) : List Value := (v.get name).asList

def textAt? (v : Value) (name : String) : Option String := (v.get name).given asText

def natAt? (v : Value) (name : String) : Option Nat := (v.get name).given asNat

end Overseer.Json.Value
