import Overseer.Proofs.Line.Upkeep

/-!
The order of requests on every connection of every run.

A poller does one operation after the other over a socket, whatever the worker sends and whenever it
stops sending (`Operates`); a session is such a run (`Session.operates_run`). The order of what it
writes on each connection, and what it means for a connection to be alive, are stated in
`requests_in_order`.
-/

namespace Overseer

open Program

/-! ### Operations -/

/-- What a poller does from one rest to the next. -/
inductive Operation where
  | tick (force : Bool)
  /-- One attempt to set up. -/
  | setUp
  /-- Stops the worker's process of a name. -/
  | terminate (name : String)
  | setScreen (on : Bool)
  | reconfigure (polling : Config.Polling)
  | shutdown
deriving DecidableEq, Repr

namespace Poller

/-- Does one operation. -/
def operate (p : Poller) : Operation → Action Poller
  | .tick force => do
    let (_, p) ← p.tick force
    return p
  | .setUp => do
    let (_, p) ← p.setUp
    return p
  | .terminate name => do
    let (_, controller, connection) ← p.controller.terminate name p.connection
    return { p with controller, connection }
  | .setScreen on => return p.setScreen on
  | .reconfigure polling => return (p.reconfigure polling).2
  | .shutdown => p.shutdown

/-- Operations done one after the other over a socket, with all that was carried out. -/
inductive Operates (p : Poller) (s : Socket) : List Carried → Poller → Socket → Prop where
  | start : Operates p s [] p s
  | operation {history p' s' steps p'' s''} (op : Operation) (run : Operates p s history p' s')
      (carried : OverSocket s' (p'.operate op) steps p'' s'') :
      Operates p s (history ++ steps) p'' s''

theorem Operates.trans {p p' p'' : Poller} {s s' s'' : Socket} {first second : List Carried}
    (h : p.Operates s first p' s') (h' : p'.Operates s' second p'' s'') :
    p.Operates s (first ++ second) p'' s'' := by
  induction h' with
  | start => rwa [List.append_nil]
  | operation op run carried ih =>
    rw [← List.append_assoc]
    exact .operation op ih carried

theorem Operates.single {p p' : Poller} {s s' : Socket} {steps : List Carried} (op : Operation)
    (h : OverSocket s (p.operate op) steps p' s') : p.Operates s steps p' s' :=
  .operation op .start h

/-- Every operation can be done against every peer, in all surroundings. -/
theorem operates_carryOut (p : Poller) (s : Socket) (op : Operation) (peer : Peer)
    (around : Surroundings Effects) :
    let run := carryOut peer around [] s (p.operate op)
    p.Operates s run.1 run.2.1 run.2.2 :=
  .single op (overSocket_carryOut peer around [] s (p.operate op))

variable {tokenFile : Path}

/-- Every operation begins and ends at rest. -/
theorem holds_operate (p : Poller) (op : Operation) :
    Holds (Settled tokenFile p.connection) (p.operate op)
      fun p' => Settled tokenFile p'.connection := by
  cases op with
  | tick force => exact Holds.bind (p.holds_tick force) fun _ => Holds.done fun _ _ h => h
  | setUp => exact Holds.bind p.holds_setUp fun _ => Holds.done fun _ _ h => h
  | terminate name =>
    exact Holds.bind (kept_settled.terminate ..) fun _ => Holds.done fun _ _ h => h
  | setScreen on => exact Holds.done fun _ _ h => h
  | reconfigure polling =>
    refine Holds.done fun history s h => ?_
    rwa [(Retuned.settings polling).connection_eq]
  | shutdown => exact p.holds_shutdown

theorem Operates.settled {p p' : Poller} {s s' : Socket} {history : List Carried}
    (run : p.Operates s history p' s') (hstart : Settled tokenFile p.connection [] s) :
    Settled tokenFile p'.connection history s' := by
  induction run with
  | start => exact hstart
  | operation op run carried ih => exact holds_operate _ op ih carried

end Poller

/-! ### Sessions -/

namespace Session

theorem operates_tick {session session' : Session} {force : Bool} {s s' : Socket}
    {steps : List Carried} (h : OverSocket s (session.tick force) steps session' s') :
    session.poller.Operates s steps session'.poller s' := by
  obtain ⟨first, second, ⟨outcome, p'⟩, s₁, rfl, hfirst, hsecond⟩ := OverSocket.bind_iff.mp h
  cases hsecond
  refine .single (.tick force) (OverSocket.bind_iff.mpr ?_)
  exact ⟨first, [], (outcome, p'), s', rfl, hfirst, .done s' p'⟩

theorem operates_handle {session session' : Session} {now : Nat} {wake : Wake}
    {action : Action Session} {s s' : Socket} {steps : List Carried}
    (hhandle : session.handle now wake = some action)
    (h : OverSocket s action steps session' s') :
    session.poller.Operates s steps session'.poller s' := by
  cases wake with
  | tick =>
    cases hhandle
    have htick := operates_tick h
    exact htick
  | command command =>
    cases command with
    | forceRefresh =>
      cases hhandle
      exact operates_tick h
    | displayChanged on =>
      cases hhandle
      have hscreen : session.poller.Operates s [] (session.poller.setScreen on) s :=
        .single (.setScreen on) (.done s _)
      cases on with
      | true =>
        have htick := operates_tick h
        exact hscreen.trans htick
      | false =>
        cases h
        exact hscreen
    | reconfigure polling =>
      have hsettings :
          session.poller.Operates s [] (session.poller.reconfigure polling).2 s :=
        .single (.reconfigure polling) (.done s _)
      unfold handle at hhandle
      cases hreconfigure : session.poller.reconfigure polling with
      | mk period? poller =>
        rw [hreconfigure] at hsettings
        simp only [hreconfigure] at hhandle
        cases period? with
        | none =>
          cases hhandle
          cases h
          exact hsettings
        | some period =>
          cases hhandle
          cases h
          exact hsettings
    | shutdown => cases hhandle

/-- A session over a socket is a run of operations: ticks and settings as it wakes up, and the
shutdown at its end. -/
theorem operates_run {session : Session} {wakes : List (Nat × Wake)} {p : Poller} {s s' : Socket}
    {steps : List Carried} (h : OverSocket s (session.run wakes) steps p s') :
    session.poller.Operates s steps p s' := by
  induction wakes generalizing session s steps with
  | nil => exact .single .shutdown h
  | cons wake rest ih =>
    obtain ⟨now, wake⟩ := wake
    unfold run at h
    cases hhandle : session.handle now wake with
    | none =>
      rw [hhandle] at h
      exact .single .shutdown h
    | some action =>
      rw [hhandle] at h
      obtain ⟨first, second, session₁, s₁, rfl, hfirst, hsecond⟩ := OverSocket.bind_iff.mp h
      exact (operates_handle hhandle hfirst).trans (ih hsecond)

end Session

/-! ### The order of requests -/

/-- The worker itself said that it will not do what was asked; nothing failed on the way. -/
def ChannelError.ByWorker : ChannelError → Prop
  | .rejected _ => True
  | .unexpectedResponse _ => True
  | _ => False

theorem byWorker_of_judge {request : Request} {response : Response} {e : ChannelError}
    (h : request.judge response = .error e) : e.ByWorker := by
  unfold Request.judge at h
  split at h
  · cases h
    trivial
  · split at h
    · cases h
    · cases h
      trivial

/-- A frame is written in order: on the newest connection, as the frame of the request that is
made, and in keeping with what was carried out on that connection since its opening. -/
structure InOrder (tokenFile : Path) (before : List Carried) (c : Carried) (stream : StreamId)
    (frame : ByteArray) (request : Request) (past : List Carried) : Prop where
  newest : newest before = some (stream, past)
  requested : c.exchange.op = .channel (.call request)
  framed : Frame.encode request.encode.toUTF8 = .ok frame ∧ writes c.streams = [(stream, frame)]
  /-- The first request presents the token, as it was read since the opening. -/
  first : Silent past → ∃ token, ⟨⟨.file (.readText tokenFile), .ok token⟩, []⟩ ∈ past ∧
    request = .authenticate (Text.trim token)
  /-- Any other one comes after the token was accepted. -/
  accepted : ¬Silent past → Authenticated tokenFile stream past
  /-- Each earlier request had one frame back, whose response its caller was given. -/
  answered : ∀ earlier ∈ past, ∀ request', earlier.exchange.op = .channel (.call request') →
    ∃ response, earlier.Answered stream request' response
  /-- No earlier request failed on the way, and the stream was not closed. -/
  unfailed : ∀ request' e streams, ⟨⟨.channel (.call request'), .error e⟩, streams⟩ ∈ past →
    e.ByWorker
  unclosed : ∀ earlier ∈ past, stream ∉ closes earlier.streams

theorem Authenticated.not_silent {tokenFile : Path} {stream : StreamId} {past : List Carried}
    (h : Authenticated tokenFile stream past) : ¬Silent past := by
  obtain ⟨before, request, call, after, rfl, -, streams, rfl, -⟩ := h
  intro hsilent
  exact hsilent _ (List.mem_append_right _ List.mem_cons_self) request rfl

theorem Permitted.inOrder {tokenFile : Path} {before : List Carried} {c : Carried}
    {stream : StreamId} {frame : ByteArray} (h : Permitted tokenFile before c)
    (hwritten : (stream, frame) ∈ writes c.streams) :
    ∃ request past, InOrder tokenFile before c stream frame request past := by
  obtain ⟨stream', past, request, frame', hnewest, hop, hframe, hwrites, hunbroken, hstanding⟩ :=
    h (List.ne_nil_of_mem hwritten)
  rw [hwrites] at hwritten
  cases List.mem_singleton.mp hwritten
  refine ⟨request, past, {
    newest := hnewest
    requested := hop
    framed := ⟨hframe, hwrites⟩
    first := fun hsilent => ?_
    accepted := fun hasked => ?_
    answered := fun earlier hmem => (hunbroken earlier hmem).answered
    unfailed := ?_
    unclosed := fun earlier hmem => (hunbroken earlier hmem).unclosed }⟩
  · rcases hstanding with hpresents | hauthenticated
    · exact hpresents.token
    · exact absurd hsilent hauthenticated.not_silent
  · rcases hstanding with hpresents | hauthenticated
    · exact absurd hpresents.silent hasked
    · exact hauthenticated
  · intro request' e streams hmem
    obtain ⟨response, streams', heq, -⟩ := (hunbroken _ hmem).answered request' rfl
    simp only [Carried.mk.injEq, Exchange.mk.injEq, heq_eq_eq, true_and] at heq
    exact byWorker_of_judge heq.1.symm

/-- What holds of a poller over a socket when it rests, given all that was carried out. -/
structure Disciplined (tokenFile : Path) (history : List Carried) (p : Poller) (s : Socket) :
    Prop where
  in_order : ∀ before c after, history = before ++ c :: after →
    ∀ stream frame, (stream, frame) ∈ writes c.streams →
      ∃ request past, InOrder tokenFile before c stream frame request past
  /-- The connection counts as alive exactly if the newest one is still unbroken and the token was
  accepted on it. -/
  alive_iff : ∀ steps alive s', OverSocket s p.connection.isAlive steps alive s' →
    (alive = true ↔ ∃ stream past, newest history = some (stream, past) ∧
      Unbroken stream past ∧ Authenticated tokenFile stream past)

theorem Settled.alive_iff {tokenFile : Path} {c : Connection} {history steps : List Carried}
    {s s' : Socket} {alive : Bool} (h : Settled tokenFile c history s)
    (hrun : OverSocket s c.isAlive steps alive s') :
    alive = true ↔ ∃ stream past, newest history = some (stream, past) ∧
      Unbroken stream past ∧ Authenticated tokenFile stream past := by
  have halive : alive = true ↔ s.stream.isSome := by
    rw [(Connection.overSocket_isAlive hrun).2]
    exact and_iff_right_of_imp h.state_eq
  rw [halive, Option.isSome_iff_exists]
  constructor
  · rintro ⟨stream, hstream⟩
    obtain ⟨past, hnewest, hunbroken⟩ := (h.held.tracks.held_iff stream).mp hstream
    exact ⟨stream, past, hnewest, hunbroken, h.held.known stream past hstream hnewest⟩
  · rintro ⟨stream, past, hnewest, hunbroken, -⟩
    exact ⟨stream, (h.held.tracks.held_iff stream).mpr ⟨past, hnewest, hunbroken⟩⟩

theorem settled_start (connection : Connection) (timeout : Nat) :
    Settled connection.tokenFile connection [] { timeout } where
  tokenFile_eq := rfl
  held := {
    tracks := {
      permitted := throughout_nil
      held_iff := fun stream => by simp [newest] }
    known := fun stream past hstream => by cases hstream }
  state_eq := fun hsome => by cases hsome

/-- After any run of operations, against whatever worker: requests were written in order on every
connection, and the connection is alive exactly if nothing speaks against using it. -/
theorem requests_in_order {config : Config} {platform : Platform} {host : HostIdentity}
    {displayOn : Bool} {timeout : Nat} {history : List Carried} {p : Poller} {s : Socket}
    (run : (Poller.ofConfig config platform host displayOn).Operates { timeout } history p s) :
    Disciplined config.worker.authFile history p s := by
  have hsettled : Settled config.worker.authFile p.connection history s :=
    run.settled (settled_start (Poller.ofConfig config platform host displayOn).connection timeout)
  refine ⟨?_, fun steps alive s' hrun => hsettled.alive_iff hrun⟩
  intro before c after hhistory stream frame hwritten
  exact (hsettled.held.tracks.permitted before c after hhistory).inOrder hwritten

/-- A worker that answers every request with the same response. -/
def politePeer : Peer := fun _ _ op =>
  let payload := (Response.encode .ok).toUTF8
  match op with
  | .connect _ => .ok 0
  | .clock => 0
  | .write _ _ _ => .ok ()
  | .read _ count _ =>
    .ok (if count = Frame.headerLength then Frame.header payload.size else payload)
  | .close _ => ()

/-- The first tick against this worker writes two frames: it presents the token, and then asks for
the preferences. -/
theorem requests_in_order_first_tick :
    let start := Poller.ofConfig {} .arm64 ⟨"", ""⟩ true
    ∃ history p s, start.Operates {} history p s ∧
      (history.flatMap fun c => writes c.streams).length = 2 ∧
      Disciplined (Config.worker {}).authFile history p s := by
  intro start
  have hrun := start.operates_carryOut {} (.tick false) politePeer fun _ => Effect.plain
  exact ⟨_, _, _, hrun, by decide +kernel, requests_in_order hrun⟩

end Overseer
