/-!
Text that may hold stray bytes.

A byte string is read as a list of symbols: the characters it encodes in UTF-8, and, where it
encodes none, its bytes one by one. A well-formed text has no stray bytes.
-/

namespace Overseer.Text

/-- A text is read from its bytes. -/
theorem fromUTF8?_toUTF8 (text : String) : String.fromUTF8? text.toUTF8 = some text := by
  unfold String.fromUTF8?
  exact dif_pos text.isValidUTF8

/-- A character, or a byte that belongs to none. -/
inductive Symbol where
  | char (c : Char)
  | stray (byte : UInt8)
deriving DecidableEq, Repr

namespace Symbol

/-- The symbols from a byte position on; `room` bounds how many there can be. -/
def from? (bytes : ByteArray) : Nat → Nat → List Symbol
  | 0, _ => []
  | room + 1, position =>
    if position < bytes.size then
      match bytes.utf8DecodeChar? position with
      | some c => .char c :: from? bytes room (position + c.utf8Size)
      | none => .stray (bytes.get! position) :: from? bytes room (position + 1)
    else []

/-- The symbols of a text. -/
def ofText (text : String) : List Symbol := text.toList.map .char

/-- The symbols of a byte string. -/
def ofBytes (bytes : ByteArray) : List Symbol :=
  match String.fromUTF8? bytes with
  | some text => ofText text
  | none => from? bytes bytes.size 0

theorem ofBytes_toUTF8 (text : String) : ofBytes text.toUTF8 = ofText text := by
  unfold ofBytes
  rw [fromUTF8?_toUTF8]

end Symbol

end Overseer.Text
