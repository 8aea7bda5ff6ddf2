/-!
Frames on the control channel.

A frame is the length of its payload as four bytes, highest first, and the payload. No frame may be
longer than 16 MiB; the length is checked before any of the payload is taken.
-/

namespace Overseer.Frame

/-- The longest payload. -/
def maxLength : Nat := 16 * 1024 * 1024

/-- The length of a frame's header. -/
def headerLength : Nat := 4

/-- The largest length that a header can give. -/
def maxHeader : Nat := UInt32.size - 1

/-- The header for a length. -/
def header (length : Nat) : ByteArray :=
  ByteArray.mk #[UInt8.ofNat (length >>> 24), UInt8.ofNat (length >>> 16),
    UInt8.ofNat (length >>> 8), UInt8.ofNat length]

/-- The length that a header gives. -/
def lengthOf (header : ByteArray) : Nat :=
  header.foldl (fun n b => 256 * n + b.toNat) 0

/-- Why there is no frame. -/
inductive Fault where
  /-- The length is over the limit. -/
  | tooLarge (length : Nat)
  /-- The input ends inside the frame. -/
  | incomplete
deriving DecidableEq, Repr

/-- The frame of a payload. -/
def encode (payload : ByteArray) : Except Fault ByteArray :=
  if maxLength < payload.size then .error (.tooLarge (min payload.size maxHeader))
  else .ok (header payload.size ++ payload)

/-- The payload of the frame that begins at a position of an input, and the position after it. -/
def takeAt (input : ByteArray) (start : Nat) : Except Fault (ByteArray × Nat) :=
  let body := start + headerLength
  if input.size < body then .error .incomplete
  else
    let length := lengthOf (input.extract start body)
    if maxLength < length then .error (.tooLarge length)
    else if input.size < body + length then .error .incomplete
    else .ok (input.extract body (body + length), body + length)

/-- Takes frames from a position on until there is none; `room` bounds their count. -/
def takeFrom (input : ByteArray) : (room start : Nat) → List ByteArray × Fault
  | 0, _ => ([], .incomplete)
  | room + 1, start =>
    match takeAt input start with
    | .error fault => ([], fault)
    | .ok (payload, next) =>
      let (payloads, fault) := takeFrom input room next
      (payload :: payloads, fault)

/-- All frames of an input, and why there are no more. -/
def takeAll (input : ByteArray) : List ByteArray × Fault := takeFrom input (input.size + 1) 0

/-- Writes frames one after the other up to the first payload that is too large: the bytes written,
and the fault if there was one. -/
def encodeAll (written : ByteArray) : List ByteArray → ByteArray × Option Fault
  | [] => (written, none)
  | payload :: rest =>
    match encode payload with
    | .error fault => (written, some fault)
    | .ok frame => encodeAll (written ++ frame) rest

end Overseer.Frame
