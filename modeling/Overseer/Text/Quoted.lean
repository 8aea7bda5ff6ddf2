import Overseer.Text.Hex
import Overseer.Text.Printable

/-!
Text shown between quotes.

Quotes and backslashes get a backslash, the usual control characters their letter, and every other
character that does not show as itself its code point in braces.
-/

namespace Overseer.Text

/-- How one character stands between quotes. -/
def quotedChar (c : Char) : List Char :=
  match c with
  | '"' => ['\\', '"']
  | '\\' => ['\\', '\\']
  | '\n' => ['\\', 'n']
  | '\r' => ['\\', 'r']
  | '\t' => ['\\', 't']
  | '\x00' => ['\\', '0']
  | c => if isPrintable c then [c] else ['\\', 'u', '\x7b'] ++ Hex.digits c.toNat ++ ['\x7d']

/-- A text between quotes. -/
def quoted (text : String) : String :=
  String.ofList ('"' :: text.toList.flatMap quotedChar ++ ['"'])

end Overseer.Text
