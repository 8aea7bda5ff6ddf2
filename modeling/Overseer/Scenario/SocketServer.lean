import Overseer.Channel.Socket
import Overseer.Files.Tree

/-!
A scripted server on a socket, in virtual time.

The server serves one connection at a time. For each request it has a reply: it waits, writes, and
may close the connection; without a reply it closes the connection on a request. It acts while its
client waits and between the client's calls, and the clock moves only when both wait. Its socket is
a file: whatever path leads there connects to it.
-/

namespace Overseer.Scenario

/-- What the server does about one request. -/
structure Reply where
  delay : Nat := 0
  /-- The bytes to write, framed already; nothing when it keeps silent. -/
  bytes : Option ByteArray
  /-- Closes the connection afterwards. -/
  close : Bool := false

/-- Where the replies come from. -/
inductive Replies where
  /-- One for each request in order, whatever it asks for. -/
  | inTurn (replies : List Reply)
  /-- One for each kind of request, and one for all other kinds. -/
  | byKind (replies : List (String × Reply)) (others : Reply)

/-- The kind of a request. -/
def kindOf (request : ByteArray) : String :=
  match Request.decode request with
  | some r => r.tag
  | none => ""

/-- The reply to a request, and what is left for later ones. -/
def Replies.next (request : ByteArray) : Replies → Option Reply × Replies
  | .inTurn [] => (none, .inTurn [])
  | .inTurn (reply :: rest) => (some reply, .inTurn rest)
  | .byKind replies others =>
    (some ((replies.lookup (kindOf request)).getD others), .byKind replies others)

/-- One connection. -/
structure Link where
  /-- Requests that the server has not read. -/
  requests : List ByteArray := []
  /-- Bytes that the client has not read. -/
  inbox : ByteArray := .empty
  clientGone : Bool := false
  serverGone : Bool := false

/-- What the server is at. -/
inductive Serving where
  /-- Waits for a connection. -/
  | idle
  /-- Waits for a request on a connection. -/
  | reading (stream : StreamId)
  /-- Will reply at a time. -/
  | delaying (stream : StreamId) (time : Nat) (reply : Reply)

structure SocketServer where
  /-- The place of the socket it listens on, once it does. -/
  address : Option Place
  replies : Replies
  links : List Link := []
  serving : Serving := .idle
  /-- How many connections were accepted. -/
  accepted : Nat := 0
  clock : Nat := 0
  /-- The payloads of the requests, in the order the server read them, last first. -/
  received : List ByteArray := []

namespace SocketServer

/-- Replies to some kinds of requests, before those it had. -/
def prefer (s : SocketServer) (replies : List (String × Reply)) : SocketServer :=
  match s.replies with
  | .inTurn _ => s
  | .byKind held others => { s with replies := .byKind (replies ++ held) others }

def link (s : SocketServer) (stream : StreamId) : Link := (s.links[stream]?).getD {}

def onLink (s : SocketServer) (stream : StreamId) (change : Link → Link) : SocketServer :=
  { s with links := s.links.modify stream change }

/-- The server is done with a connection. -/
def leave (s : SocketServer) (stream : StreamId) : SocketServer :=
  { s.onLink stream fun l => { l with serverGone := true } with serving := .idle }

/-- Writes a reply; the connection ends if it is to be closed or the client is gone. -/
def deliver (s : SocketServer) (stream : StreamId) (reply : Reply) : SocketServer :=
  match reply.bytes with
  | none => if reply.close then s.leave stream else { s with serving := .reading stream }
  | some bytes =>
    if (s.link stream).clientGone then s.leave stream
    else
      let s := s.onLink stream fun l => { l with inbox := l.inbox ++ bytes }
      if reply.close then s.leave stream else { s with serving := .reading stream }

/-- Takes a request off a connection and begins its reply. -/
def accept (s : SocketServer) (stream : StreamId) (request : ByteArray) (rest : List ByteArray) :
    SocketServer :=
  let s := s.onLink stream fun l => { l with requests := rest }
  let s := { s with received := request :: s.received }
  let (reply, replies) := s.replies.next request
  let s := { s with replies }
  match reply with
  | none => s.leave stream
  | some reply =>
    if reply.delay = 0 then s.deliver stream reply
    else { s with serving := .delaying stream (s.clock + reply.delay) reply }

/-- What the server can do right now, if anything. -/
def act? (s : SocketServer) : Option SocketServer :=
  match s.serving with
  | .idle =>
    if s.accepted < s.links.length then
      some { s with serving := .reading s.accepted, accepted := s.accepted + 1 }
    else none
  | .reading stream =>
    match (s.link stream).requests with
    | request :: rest => some (s.accept stream request rest)
    | [] => if (s.link stream).clientGone then some (s.leave stream) else none
  | .delaying stream time reply => if time ≤ s.clock then some (s.deliver stream reply) else none

/-- Lets the server act until it waits; `room` bounds how often. -/
def actUpTo : Nat → SocketServer → SocketServer
  | 0, s => s
  | room + 1, s =>
    match s.act? with
    | none => s
    | some s => actUpTo room s

/-- A bound on what the server can do before it waits: accept a connection, take a request off it,
finish a reply, or leave it. -/
def room (s : SocketServer) : Nat :=
  3 * s.links.foldl (fun n link => n + link.requests.length) s.links.length + 3

/-- Lets the server act until it waits. -/
def act (s : SocketServer) : SocketServer := actUpTo s.room s

/-- The time at which the server goes on by itself. -/
def wakeTime? (s : SocketServer) : Option Nat :=
  match s.serving with
  | .delaying _ time _ => some time
  | _ => none

/-! ### The client's side -/

/-- Takes bytes that have arrived. -/
def takeBytes (s : SocketServer) (stream : StreamId) (count : Nat) : ByteArray × SocketServer :=
  let inbox := (s.link stream).inbox
  (inbox.extract 0 count,
    s.onLink stream fun l => { l with inbox := inbox.extract count inbox.size })

/-- Waits for bytes until a deadline; one that has come already leaves the server no chance to act.
`room` bounds how often the server goes on. -/
def await (stream : StreamId) (count deadline : Nat) :
    Nat → SocketServer → Except StreamFault ByteArray × SocketServer
  | 0, s => (.error .timedOut, { s with clock := max s.clock deadline })
  | room + 1, s =>
    if count ≤ (s.link stream).inbox.size then
      let (bytes, s) := s.takeBytes stream count
      (.ok bytes, s)
    else if deadline ≤ s.clock then (.error .timedOut, s)
    else
      let s := s.act
      if count ≤ (s.link stream).inbox.size then
        let (bytes, s) := s.takeBytes stream count
        (.ok bytes, s)
      else if (s.link stream).serverGone then (.error (.io .unexpectedEof), s)
      else
        match s.wakeTime? with
        | some time =>
          if time < deadline then await stream count deadline room { s with clock := time }
          else (.error .timedOut, { s with clock := max s.clock deadline })
        | none => (.error .timedOut, { s with clock := max s.clock deadline })

/-- How many bytes the path of a socket has at most. -/
def maxAddressLength : Nat := 107

/-- What the path of a socket leads to among files, for who may write to it. -/
def socketAt (files : Tree) (path : Path) : Except IoFault Place := do
  if maxAddressLength < path.text.utf8ByteSize then throw .invalidInput
  let found ← files.find path
  Tree.demand (found.node.allows .write)
  return found.place

/-- Carries out a stream operation of the client, whose files are given. -/
def perform (s : SocketServer) (files : Tree) : (op : StreamOp) → op.Answer × SocketServer
  | .clock => (s.clock, s)
  | .connect path =>
    match socketAt files path with
    | .error fault => (.error fault, s)
    | .ok place =>
      if s.address = some place then (.ok s.links.length, { s with links := s.links ++ [{}] })
      else (.error .connectionRefused, s)
  | .write stream bytes _ =>
    if (s.link stream).serverGone then (.error (.io .brokenPipe), s)
    else
      let payload := bytes.extract Frame.headerLength bytes.size
      (.ok (), s.onLink stream fun l => { l with requests := l.requests ++ [payload] })
  | .read stream count deadline => await stream count deadline s.room s
  | .close stream => ((), s.onLink stream fun l => { l with clientGone := true })

/-- Runs a program over streams against the server, which goes on afterwards. -/
def run {α : Type} (s : SocketServer) (files : Tree) : Program Streams α → α × SocketServer
  | .done a => (a, s.act)
  | .ask op next =>
    let (answer, s) := s.perform files op
    s.run files (next answer)

end SocketServer

end Overseer.Scenario
