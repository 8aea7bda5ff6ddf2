import Overseer.Toml.Value

/-!
Fields inside TOML values.

The fields of a structure come from a table, by name, or from an array, by position. Each reader
takes a value of one kind and refuses all others.
-/

namespace Overseer.Toml

/-- The fields of a section. A date is a section without any of them. -/
def Value.fields? (names : List String) : Value → Option Entries
  | .table _ entries => some entries
  | .array _ items => some (names.zip items)
  | .datetime => some []
  | _ => none

/-- A field, or what stands for it when it is missing. -/
def Entries.field {α : Type} (entries : Entries) (name : String) (fallback : α)
    (read : Value → Option α) : Option α :=
  match entries.lookup name with
  | none => some fallback
  | some v => read v

/-- A field that must be there. -/
def Entries.required {α : Type} (entries : Entries) (name : String) (read : Value → Option α) :
    Option α :=
  (entries.lookup name).bind read

/-- A field that may be missing. -/
def Entries.optional {α : Type} (entries : Entries) (name : String) (read : Value → Option α) :
    Option (Option α) :=
  entries.field name none fun v => (read v).map some

namespace Value

def text? : Value → Option String
  | .string s => some s
  | _ => none

def bool? : Value → Option Bool
  | .bool b => some b
  | _ => none

/-- A natural number below a bound. -/
def below? (bound : Nat) : Value → Option Nat
  | .integer (.ofNat n) => if n < bound then some n else none
  | _ => none

/-- A count of 32 bits. -/
def count? (v : Value) : Option Nat := v.below? UInt32.size

/-- A number of milliseconds of 64 bits. -/
def millis? (v : Value) : Option Nat := v.below? UInt64.size

/-- Reads every item with one reader. -/
def readItems {α : Type} (read : Value → Option α) : List Value → Option (List α)
  | [] => some []
  | v :: rest => (read v).bind fun a => (readItems read rest).map (a :: ·)

def list? {α : Type} (read : Value → Option α) : Value → Option (List α)
  | .array _ items => readItems read items
  | _ => none

end Value

end Overseer.Toml
