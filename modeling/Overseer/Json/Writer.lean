import Overseer.Json.Number
import Overseer.Text.Hex

/-!
Writing JSON values.

Nothing stands between tokens. Quotes, backslashes and control characters are escaped, the five
common ones by a letter and the others by four digits; all other characters stand for themselves.
-/

namespace Overseer.Json

/-- How one character stands inside a string. -/
def charText (c : Char) : List Char :=
  match c with
  | '"' => ['\\', '"']
  | '\\' => ['\\', '\\']
  | '\x08' => ['\\', 'b']
  | '\x0c' => ['\\', 'f']
  | '\n' => ['\\', 'n']
  | '\r' => ['\\', 'r']
  | '\t' => ['\\', 't']
  | c => if c.toNat < 0x20 then '\\' :: 'u' :: Text.Hex.padded 4 c.toNat else [c]

/-- A string with its quotes. -/
def stringText (s : String) : List Char := '"' :: s.toList.flatMap charText ++ ['"']

/-- A string of unknown text is written empty. -/
def stringText? (s : Option String) : List Char := stringText (s.getD "")

mutual

/-- The text of a value. -/
def Value.chars : Value → List Char
  | .null => ['n', 'u', 'l', 'l']
  | .bool true => ['t', 'r', 'u', 'e']
  | .bool false => ['f', 'a', 'l', 's', 'e']
  | .number n => n.text
  | .string s => stringText? s
  | .array [] => ['[', ']']
  | .array (item :: rest) => '[' :: item.chars ++ itemsChars rest ++ [']']
  | .object [] => ['\x7b', '\x7d']
  | .object (m :: rest) => '\x7b' :: memberChars m ++ membersChars rest ++ ['\x7d']
termination_by structural v => v

/-- Further items, each after a comma. -/
def itemsChars : List Value → List Char
  | [] => []
  | item :: rest => ',' :: item.chars ++ itemsChars rest
termination_by structural items => items

/-- Further members, each after a comma. -/
def membersChars : List (Option String × Value) → List Char
  | [] => []
  | m :: rest => ',' :: memberChars m ++ membersChars rest
termination_by structural members => members

/-- A name, a colon and a value. -/
def memberChars : Option String × Value → List Char
  | (name, v) => stringText? name ++ ':' :: v.chars
termination_by structural m => m

end

/-- The text of a value. -/
def Value.render (v : Value) : String := String.ofList v.chars

end Overseer.Json
