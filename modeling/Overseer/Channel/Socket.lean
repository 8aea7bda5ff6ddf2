import Overseer.Channel.Basic
import Overseer.Wire.Frame

/-!
The control channel over a stream socket.

Every request is one frame and is answered by one frame, within a time limit. An error from the
worker and an unexpected response leave the stream in use; any other failure gives it up, because
the next frame on it could belong to the failed request.
-/

namespace Overseer

/-- The number of a stream; a new connection gets a new one. -/
@[reducible] def StreamId : Type := Nat

/-- Why a stream operation failed. -/
inductive StreamFault where
  | io (fault : IoFault)
  /-- The deadline passed. -/
  | timedOut
deriving DecidableEq, Repr

/-- Operations on streams. A deadline is a time of the clock, in milliseconds. -/
inductive StreamOp where
  | connect (address : Path)
  | clock
  | write (stream : StreamId) (bytes : ByteArray) (deadline : Nat)
  /-- Exactly so many bytes. -/
  | read (stream : StreamId) (count deadline : Nat)
  | close (stream : StreamId)

@[reducible] def StreamOp.Answer : StreamOp → Type
  | connect _ => Except IoFault StreamId
  | clock => Nat
  | write _ _ _ => Except StreamFault Unit
  | read _ _ _ => Except StreamFault ByteArray
  | close _ => Unit

@[reducible] def Streams : Interface := ⟨StreamOp, StreamOp.Answer⟩

/-- The failure of a call on the channel that a stream fault makes. -/
def StreamFault.toChannelError : StreamFault → ChannelError
  | io fault => .io fault
  | timedOut => .timeout

/-- The failure that a frame fault makes. -/
def Frame.Fault.toChannelError : Frame.Fault → ChannelError
  | tooLarge length => .frameTooLarge length
  | incomplete => .io .unexpectedEof

/-- A channel over at most one stream at a time. -/
structure Socket where
  /-- The time limit of a call, in milliseconds. -/
  timeout : Nat := 10000
  stream : Option StreamId := none
deriving DecidableEq, Repr

namespace Socket

def write (stream : StreamId) (bytes : ByteArray) (deadline : Nat) :
    Program Streams (Except StreamFault Unit) :=
  Program.call (I := Streams) (.write stream bytes deadline)

def read (stream : StreamId) (count deadline : Nat) :
    Program Streams (Except StreamFault ByteArray) :=
  Program.call (I := Streams) (.read stream count deadline)

/-- Sends the frame of a request. -/
def send (stream : StreamId) (request : Request) (deadline : Nat) :
    Program Streams (Except ChannelError Unit) := do
  match Frame.encode request.encode.toUTF8 with
  | .error fault => return .error fault.toChannelError
  | .ok frame =>
    let written ← write stream frame deadline
    return written.mapError StreamFault.toChannelError

/-- Takes one frame from the stream. -/
def receive (stream : StreamId) (deadline : Nat) :
    Program Streams (Except ChannelError ByteArray) := do
  match ← read stream Frame.headerLength deadline with
  | .error fault => return .error fault.toChannelError
  | .ok header =>
    let length := Frame.lengthOf header
    if Frame.maxLength < length then return .error (.frameTooLarge length)
    else
      let payload ← read stream length deadline
      return payload.mapError StreamFault.toChannelError

/-- Sends a request and takes the response to it. -/
def exchange (stream : StreamId) (request : Request) (deadline : Nat) :
    Program Streams (Except ChannelError Response) := do
  match ← send stream request deadline with
  | .error e => return .error e
  | .ok () =>
    match ← receive stream deadline with
    | .error e => return .error e
    | .ok payload =>
      match Response.decode payload with
      | none => return .error .codec
      | some response => return .ok response

/-- Gives up the stream, if there is one. -/
def drop (s : Socket) : Program Streams Socket :=
  match s.stream with
  | none => return s
  | some stream => do
    Program.call (I := Streams) (.close stream)
    return { s with stream := none }

/-- Connects anew; the stream before is given up in any case. -/
def connect (s : Socket) (address : Path) :
    Program Streams (Except ChannelError Unit × Socket) := do
  let s ← s.drop
  match ← Program.call (I := Streams) (.connect address) with
  | .error fault => return (.error (.io fault), s)
  | .ok stream => return (.ok (), { s with stream := some stream })

/-- Calls the worker. -/
def call (s : Socket) (request : Request) :
    Program Streams (Except ChannelError request.Reply × Socket) :=
  match s.stream with
  | none => return (.error .notConnected, s)
  | some stream => do
    let now ← Program.call (I := Streams) .clock
    match ← exchange stream request (now + s.timeout) with
    | .ok response => return (request.judge response, s)
    | .error e =>
      let s ← s.drop
      return (.error e, s)

/-- Carries out an operation of the channel. -/
def perform (s : Socket) : (op : ChannelOp) → Program Streams (op.Answer × Socket)
  | .connect address => s.connect address
  | .isAlive => return (s.stream.isSome, s)
  | .call request => s.call request
  | .close => do
    let s ← s.drop
    return ((), s)

end Socket

end Overseer
