import Overseer.Json.Value

/-!
Records and choices inside JSON values.

A record is an object, whose members may come in any order, or an array with the fields in their
declared order. Members with other names are passed over, whatever their values; a field given twice
is a fault, and so is an array with too many items. A choice is tagged: an object with a member
`type` beside the fields, or an array that starts with the tag.
-/

namespace Overseer.Json

/-- The fields of a record that were given. In an array (`positional`) only trailing fields can be
missing, and none that has no default. -/
structure Record where
  positional : Bool
  fields : List (String × Value)

/-- No name occurs twice. -/
def distinct : List String → Bool
  | [] => true
  | name :: rest => !rest.contains name && distinct rest

/-- The members of an object whose names all have a text. -/
def namedMembers : List (Option String × Value) → Option (List (String × Value))
  | [] => some []
  | (name, v) :: rest => name.bind fun name => (namedMembers rest).map ((name, v) :: ·)

/-- The fields `names` of a value that is a record. -/
def Value.record? (names : List String) : Value → Option Record
  | .object members =>
    (namedMembers members).bind fun members =>
      let known := members.filter fun m => names.contains m.1
      if distinct (known.map (·.1)) then some ⟨false, known⟩ else none
  | .array items => if items.length ≤ names.length then some ⟨true, names.zip items⟩ else none
  | _ => none

namespace Record

variable {α : Type}

/-- The value of a field, if it was given. -/
def get? (r : Record) (name : String) : Option Value := r.fields.lookup name

/-- A field that must be given. -/
def required (r : Record) (name : String) (read : Value → Option α) : Option α :=
  (r.get? name).bind read

/-- A field that has a value when it is not given. -/
def defaulted (r : Record) (name : String) (fallback : α) (read : Value → Option α) : Option α :=
  match r.get? name with
  | none => some fallback
  | some v => read v

/-- Null, or what `read` accepts. -/
def orNull (read : Value → Option α) : Value → Option (Option α)
  | .null => some none
  | v => (read v).map some

/-- A field that may be null, and may be missing from an object but not from an array. -/
def optional (r : Record) (name : String) (read : Value → Option α) : Option (Option α) :=
  match r.get? name with
  | none => if r.positional then none else some none
  | some v => orNull read v

end Record

/-! ### Reading single values -/

namespace Value

def bool? : Value → Option Bool
  | .bool b => some b
  | _ => none

def text? : Value → Option String
  | .string s => s
  | _ => none

/-- A natural number below a bound. -/
def below? (bound : Nat) : Value → Option Nat
  | .number (.natural n) => if n < bound then some n else none
  | _ => none

def uint64? (v : Value) : Option UInt64 := (v.below? UInt64.size).map UInt64.ofNat

def uint32? (v : Value) : Option UInt32 := (v.below? UInt32.size).map UInt32.ofNat

def int32? : Value → Option Int32
  | .number (.natural n) => if n < 0x80000000 then some (Int32.ofInt n) else none
  | .number (.negative n) => if n ≤ 0x80000000 then some (Int32.ofInt (-n)) else none
  | _ => none

/-- Any number in range, as a double. -/
def float? : Value → Option Float
  | .number (.natural n) => some n.toUInt64.toFloat
  | .number (.negative n) => some (-n.toUInt64.toFloat)
  | .number (.real x) => some x
  | _ => none

/-- Reads every item with one reader; one that fails fails the list. -/
def readItems {α : Type} (read : Value → Option α) : List Value → Option (List α)
  | [] => some []
  | v :: rest => (read v).bind fun a => (readItems read rest).map (a :: ·)

/-- An array of what `read` accepts. -/
def list? {α : Type} (read : Value → Option α) : Value → Option (List α)
  | .array items => readItems read items
  | _ => none

/-! ### Choices -/

/-- The tag of a choice and the value that holds its fields. -/
def tagged? : Value → Option (String × Value)
  | .object members =>
    (namedMembers members).bind fun named =>
      match named.filter (·.1 = "type") with
      | [(_, .string (some tag))] =>
        some (tag, .object (members.filter fun m => m.1 ≠ some "type"))
      | _ => none
  | .array (.string (some tag) :: rest) => some (tag, .array rest)
  | _ => none

/-- A choice without fields: an object may still have members, an array may not have items. -/
def unit? : Value → Option Unit
  | .object _ => some ()
  | .array [] => some ()
  | _ => none

end Value

end Overseer.Json
