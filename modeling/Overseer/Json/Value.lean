/-!
JSON values as they are read.

Numbers keep the kind their spelling gives them: natural, negative or real, or out of the range of
all three. A string whose text cannot be recovered (half a surrogate pair, bytes that are not UTF-8)
is `none`: a reader that skips the string may accept it, a reader that needs its text may not.
-/

namespace Overseer.Json

/-- A number by its kind. -/
inductive Number where
  /-- A natural number below 2 ^ 64. -/
  | natural (n : Nat)
  /-- The number `-magnitude`, down to -2 ^ 63. -/
  | negative (magnitude : Nat)
  /-- A number with a fraction or an exponent, or a whole number beyond the other two kinds. -/
  | real (x : Float)
  /-- Beyond the largest double. -/
  | outOfRange

/-- A JSON value; object members stay in the order of the text. -/
inductive Value where
  | null
  | bool (b : Bool)
  | number (n : Number)
  | string (text : Option String)
  | array (items : List Value)
  | object (members : List (Option String × Value))
deriving Inhabited

/-- A number that a double can hold. -/
def Number.inRange : Number → Bool
  | .outOfRange => false
  | _ => true

namespace Value

/-- A string value. -/
def text (s : String) : Value := .string (some s)

/-- A natural number. -/
def natural (n : Nat) : Value := .number (.natural n)

/-- A whole number. -/
def integer : Int → Value
  | .ofNat n => .number (.natural n)
  | .negSucc n => .number (.negative (n + 1))

/-- A real number; JSON has no spelling for one that is not finite, which is written as null. -/
def real (x : Float) : Value := if x.isFinite then .number (.real x) else .null

/-- An object from named values. -/
def record (members : List (String × Value)) : Value :=
  .object (members.map fun m => (some m.1, m.2))

/-- Null for what is absent. -/
def nullable {α : Type} (toJson : α → Value) : Option α → Value
  | none => .null
  | some a => toJson a

end Value

/-! ### Nesting and well-formedness -/

mutual

/-- How deep arrays and objects are nested. -/
def Value.depth : Value → Nat
  | .array items => depthOfItems items + 1
  | .object members => depthOfMembers members + 1
  | _ => 0
termination_by structural v => v

/-- The depth of the deepest item. -/
def depthOfItems : List Value → Nat
  | [] => 0
  | v :: rest => max v.depth (depthOfItems rest)
termination_by structural items => items

/-- The depth of the deepest member. -/
def depthOfMembers : List (Option String × Value) → Nat
  | [] => 0
  | m :: rest => max (depthOfMember m) (depthOfMembers rest)
termination_by structural members => members

/-- The depth of a member's value. -/
def depthOfMember : Option String × Value → Nat
  | (_, v) => v.depth
termination_by structural m => m

end

mutual

/-- Every string has a text and every number is in range, at any depth. -/
def Value.legible : Value → Bool
  | .number n => n.inRange
  | .string s => s.isSome
  | .array items => legibleItems items
  | .object members => legibleMembers members
  | _ => true
termination_by structural v => v

def legibleItems : List Value → Bool
  | [] => true
  | v :: rest => v.legible && legibleItems rest
termination_by structural items => items

def legibleMembers : List (Option String × Value) → Bool
  | [] => true
  | m :: rest => legibleMember m && legibleMembers rest
termination_by structural members => members

def legibleMember : Option String × Value → Bool
  | (name, v) => name.isSome && v.legible
termination_by structural m => m

end

/-- The deepest nesting of a value that is kept whole before it is looked at. -/
def maxDepth : Nat := 127

/-- A value that can be kept whole: legible throughout and not nested too deep. -/
def Value.wellFormed (v : Value) : Bool := v.legible && v.depth ≤ maxDepth

end Overseer.Json
