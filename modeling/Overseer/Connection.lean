import Overseer.Effects
import Overseer.Text.Blank

/-!
The connection to the worker.

To connect is to open the channel and to authenticate on it with the token that the worker keeps in
a file. Whatever fails on the way, the connection is not left half open. Nothing is tried twice
here.
-/

namespace Overseer

inductive ConnectionState where
  | disconnected
  | connecting
  | authenticated
deriving DecidableEq, Repr

def ConnectionState.name : ConnectionState → String
  | disconnected => "Disconnected"
  | connecting => "Connecting"
  | authenticated => "Authenticated"

structure Connection where
  address : Path
  tokenFile : Path
  state : ConnectionState := .disconnected

namespace Connection

/-- Closes the channel. -/
def close (c : Connection) : Action Connection := do
  Action.channel .close
  return { c with state := .disconnected }

/-- Opens the channel and authenticates; tells whether both succeeded. -/
def connect (c : Connection) : Action (Bool × Connection) := do
  match ← Action.channel (.connect c.address) with
  | .error _ => return (false, { c with state := .disconnected })
  | .ok () =>
    match ← Action.files (Files.readText c.tokenFile) with
    | .error _ =>
      let c ← c.close
      return (false, c)
    | .ok token =>
      match ← Action.request (.authenticate (Text.trim token)) with
      | .error _ =>
        let c ← c.close
        return (false, c)
      | .ok () => return (true, { c with state := .authenticated })

/-- Whether the channel can be used right now. -/
def isAlive (c : Connection) : Action Bool :=
  match c.state with
  | .authenticated => Action.channel .isAlive
  | _ => return false

/-- Connects up to `more + 1` times, with a pause between two tries. -/
def connectAgain (c : Connection) (delay : Nat) : Nat → Action (Bool × Connection)
  | 0 => c.connect
  | more + 1 => do
    let (connected, c) ← c.connect
    if connected then return (true, c)
    else
      Action.sleep delay
      c.connectAgain delay more

/-- Connects up to `attempts` times, and at least once. -/
def connectWithRetry (c : Connection) (attempts delay : Nat) : Action (Bool × Connection) :=
  c.connectAgain delay (attempts - 1)

end Connection

end Overseer
