import Overseer.Text.Hex

/-!
Bytes written as pairs of hexadecimal digits.
-/

namespace Overseer.Bytes

/-- Two lower-case digits for each byte. -/
def toHex (bytes : ByteArray) : String :=
  String.ofList (bytes.toList.flatMap fun b => Text.Hex.padded 2 b.toNat)

/-- The bytes that pairs of digits denote. -/
def ofHexDigits : List Char → Option (List UInt8)
  | [] => some []
  | high :: low :: rest => do
    let h ← Text.Hex.value? high
    let l ← Text.Hex.value? low
    let more ← ofHexDigits rest
    return UInt8.ofNat (16 * h + l) :: more
  | _ => none

def ofHex? (text : String) : Option ByteArray :=
  (ofHexDigits text.toList).map fun bytes => ByteArray.mk bytes.toArray

end Overseer.Bytes
