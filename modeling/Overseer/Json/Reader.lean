import Overseer.Json.Token

/-!
Reading JSON values from tokens.

A text is one value and nothing after it. Items and members are separated by single commas, and an
object may name a member twice.
-/

namespace Overseer.Json

mutual

/-- One value and the tokens after it; `room` bounds the nesting and the count of parts. -/
def readValue : Nat → List Token → Option (Value × List Token)
  | 0, _ => none
  | room + 1, tokens =>
    match tokens with
    | .null :: rest => some (.null, rest)
    | .bool b :: rest => some (.bool b, rest)
    | .number n :: rest => some (.number n, rest)
    | .string s :: rest => some (.string s, rest)
    | .openBracket :: .closeBracket :: rest => some (.array [], rest)
    | .openBracket :: rest =>
      (readItems room rest).map fun (items, rest) => (.array items, rest)
    | .openBrace :: .closeBrace :: rest => some (.object [], rest)
    | .openBrace :: rest =>
      (readMembers room rest).map fun (members, rest) => (.object members, rest)
    | _ => none

/-- The items up to the closing bracket, at least one. -/
def readItems : Nat → List Token → Option (List Value × List Token)
  | 0, _ => none
  | room + 1, tokens =>
    (readValue room tokens).bind fun (item, rest) =>
      match rest with
      | .comma :: rest => (readItems room rest).map fun (items, rest) => (item :: items, rest)
      | .closeBracket :: rest => some ([item], rest)
      | _ => none

/-- The members up to the closing brace, at least one. -/
def readMembers : Nat → List Token → Option (List (Option String × Value) × List Token)
  | 0, _ => none
  | room + 1, tokens =>
    match tokens with
    | .string name :: .colon :: rest =>
      (readValue room rest).bind fun (v, rest) =>
        match rest with
        | .comma :: rest =>
          (readMembers room rest).map fun (members, rest) => ((name, v) :: members, rest)
        | .closeBrace :: rest => some ([(name, v)], rest)
        | _ => none
    | _ => none

end

/-- The value that a byte string spells, if it spells exactly one. -/
def read (bytes : ByteArray) : Option Value := do
  let ts ← tokens (Text.Symbol.ofBytes bytes)
  match readValue (2 * ts.length + 1) ts with
  | some (v, []) => some v
  | _ => none

end Overseer.Json
