import Overseer.Files.Operation
import Overseer.Wire.Message

/-!
The control channel to a worker.

A channel is opened, carries requests, and is closed. A call either gives the reply that the request
asks for, or fails for one of the causes of `ChannelError`.
-/

namespace Overseer

/-- Why a call on the channel failed. -/
inductive ChannelError where
  | notConnected
  | io (fault : IoFault)
  /-- What arrived is no response. -/
  | codec
  | frameTooLarge (length : Nat)
  | timeout
  /-- The worker answered with an error. -/
  | rejected (message : String)
  /-- The worker answered with the response to something else. -/
  | unexpectedResponse (request : String)
deriving DecidableEq, Repr

/-- The text of a failure. -/
def ChannelError.message : ChannelError → String
  | notConnected => "control channel is not connected"
  | io fault => "control channel I/O failed: " ++ fault.name
  | codec => "malformed control channel message"
  | frameTooLarge length =>
    "control channel frame of " ++ toString length ++ " bytes exceeds limit"
  | timeout => "control channel request timed out"
  | rejected message => "worker rejected request: " ++ message
  | unexpectedResponse request => "unexpected response to " ++ request

/-- The name of a failure's kind. -/
def ChannelError.kind : ChannelError → String
  | notConnected => "NotConnected"
  | io _ => "Io"
  | codec => "Codec"
  | frameTooLarge _ => "FrameTooLarge"
  | timeout => "Timeout"
  | rejected _ => "Rejected"
  | unexpectedResponse _ => "UnexpectedResponse"

inductive ChannelOp where
  | connect (address : Path)
  /-- Whether the channel can carry requests; costs nothing and changes nothing. -/
  | isAlive
  | call (request : Request)
  | close

@[reducible] def ChannelOp.Answer : ChannelOp → Type
  | connect _ => Except ChannelError Unit
  | isAlive => Bool
  | call request => Except ChannelError request.Reply
  | close => Unit

/-- A control channel. -/
@[reducible] def Channel : Interface := ⟨ChannelOp, ChannelOp.Answer⟩

/-- What a response means for the request it answers. -/
def Request.judge (request : Request) : Response → Except ChannelError request.Reply
  | .error message => .error (.rejected message)
  | response =>
    match request.accept? response with
    | some reply => .ok reply
    | none => .error (.unexpectedResponse request.tag)

end Overseer
