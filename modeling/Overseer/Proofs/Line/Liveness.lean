import Overseer.Proofs.Line.Runs

/-!
When a connection is alive.

A connection is alive exactly while it is authenticated and the socket holds a stream
(`Connection.aliveOver_iff`). A call keeps the stream exactly if the worker itself answered it, be
it with an error; any other failure gives the stream up (`Socket.call_keeps`). From this follows
what an attempt to set up leaves behind: none that fails leaves a stream, and one that succeeds
leaves the stream exactly if the worker answered its last request (`SetupPlan.run_leaves`).
-/

namespace Overseer

open Program

/-! ### Being alive -/

/-- Asked over this socket, the connection says that it is alive. -/
def Connection.AliveOver (c : Connection) (s : Socket) : Prop :=
  ∃ steps s', OverSocket s c.isAlive steps true s'

namespace Connection

variable {c : Connection} {s s' : Socket}

theorem aliveOver_iff : c.AliveOver s ↔ c.state = .authenticated ∧ s.stream.isSome := by
  constructor
  · rintro ⟨steps, s', h⟩
    exact (overSocket_isAlive h).2.mp rfl
  · rintro ⟨hstate, hstream⟩
    have hlook : OverSocket s c.isAlive [⟨⟨.channel .isAlive, s.stream.isSome⟩, []⟩]
        s.stream.isSome s := by
      unfold isAlive
      rw [hstate]
      exact .ask (.channel (.done _)) (.done s _)
    rw [hstream] at hlook
    exact ⟨_, s, hlook⟩

theorem not_aliveOver_of_stream (h : s.stream = none) : ¬c.AliveOver s := by
  rw [aliveOver_iff, h]
  simp

end Connection

/-- A connection at rest that is not alive has no stream. -/
theorem Settled.stream_eq_none {tokenFile : Path} {c : Connection} {history : List Carried}
    {s : Socket} (h : Settled tokenFile c history s) (hdead : ¬c.AliveOver s) :
    s.stream = none := by
  cases hstream : s.stream with
  | none => rfl
  | some stream =>
    have hsome : s.stream.isSome := by rw [hstream]; rfl
    exact absurd (Connection.aliveOver_iff.mpr ⟨h.state_eq hsome, hsome⟩) hdead

/-! ### Calls -/

/-- The worker answered, if only with an error. -/
def FromWorker {α : Type} (answer : Except ChannelError α) : Prop :=
  ∀ e, answer = .error e → e.ByWorker

theorem fromWorker_ok {α : Type} (a : α) : FromWorker (.ok a) := by
  intro e he
  cases he

theorem not_fromWorker {α : Type} {e : ChannelError} (h : ¬e.ByWorker) :
    ¬FromWorker (.error e : Except ChannelError α) :=
  fun hworker => h (hworker e rfl)

theorem not_byWorker_of_stream (fault : StreamFault) : ¬fault.toChannelError.ByWorker := by
  cases fault <;> exact id

theorem not_byWorker_of_frame (fault : Frame.Fault) : ¬fault.toChannelError.ByWorker := by
  cases fault <;> exact id

namespace Socket

theorem send_faults (stream : StreamId) (request : Request) (deadline : Nat) :
    Ensures (send stream request deadline) fun _ sent => ∀ e, sent = .error e → ¬e.ByWorker := by
  unfold send
  cases Frame.encode request.encode.toUTF8 with
  | error fault =>
    refine Ensures.done fun e he => ?_
    cases he
    exact not_byWorker_of_frame fault
  | ok frame =>
    refine Ensures.question fun written => Ensures.done fun e he => ?_
    cases written with
    | ok => cases he
    | error fault =>
      cases he
      exact not_byWorker_of_stream fault

theorem receive_faults (stream : StreamId) (deadline : Nat) :
    Ensures (receive stream deadline) fun _ received =>
      ∀ e, received = .error e → ¬e.ByWorker := by
  apply Ensures.question
  intro header
  cases header with
  | error fault =>
    refine Ensures.done fun e he => ?_
    cases he
    exact not_byWorker_of_stream fault
  | ok header =>
    by_cases hlength : Frame.maxLength < Frame.lengthOf header
    · simp only [if_pos hlength]
      refine Ensures.done fun e he => ?_
      cases he
      exact id
    · simp only [if_neg hlength]
      refine Ensures.question fun payload => Ensures.done fun e he => ?_
      cases payload with
      | ok => cases he
      | error fault =>
        cases he
        exact not_byWorker_of_stream fault

/-- What fails on the way is never the worker's own answer. -/
theorem exchange_faults (stream : StreamId) (request : Request) (deadline : Nat) :
    Ensures (exchange stream request deadline) fun _ result =>
      ∀ e, result = .error e → ¬e.ByWorker := by
  refine Ensures.bind (send_faults ..) fun first sent hsent => ?_
  cases sent with
  | error e =>
    refine Ensures.done fun e' he' => ?_
    cases he'
    exact hsent e rfl
  | ok =>
    refine Ensures.bind (receive_faults ..) fun second received hreceived => ?_
    cases received with
    | error e =>
      refine Ensures.done fun e' he' => ?_
      cases he'
      exact hreceived e rfl
    | ok payload =>
      cases hdecode : Response.decode payload with
      | none =>
        simp only [hdecode]
        refine Ensures.done fun e he => ?_
        cases he
        exact id
      | some response =>
        simp only [hdecode]
        exact Ensures.done fun e he => by cases he

/-- After a call there is a stream exactly if the worker answered it. -/
theorem call_keeps (s : Socket) (request : Request) :
    Ensures (s.call request) fun _ (answer, s') => s'.stream.isSome ↔ FromWorker answer := by
  unfold call
  cases hstream : s.stream with
  | none =>
    refine Ensures.done ?_
    simp only [hstream, Option.isSome_none, Bool.false_eq_true, false_iff]
    exact not_fromWorker id
  | some stream =>
    apply Ensures.question
    intro now
    refine Ensures.bind (exchange_faults ..) fun first result hfaults => ?_
    cases result with
    | ok response =>
      refine Ensures.done ?_
      simp only [hstream, Option.isSome_some, true_iff]
      exact fun e he => byWorker_of_judge he
    | error e =>
      refine Ensures.bind s.drop_ensures ?_
      rintro second s' ⟨hnone, -⟩
      refine Ensures.done ?_
      simp only [hnone, Option.isSome_none, Bool.false_eq_true, false_iff]
      exact not_fromWorker (hfaults e rfl)

end Socket

/-! ### Whether a stream is held -/

/-- No stream is held, if `shut` is the case. -/
def Shut (shut : Prop) : Standing := fun _ s => shut → s.stream = none

/-- Any history and any socket. -/
def Anywhere : Standing := fun _ _ => True

theorem anywhere {α : Type} {before : Standing} (action : Action α) :
    Holds before action fun _ => Anywhere :=
  fun _ _ _ _ _ _ _ => trivial

variable {shut : Prop}

theorem shut_quiet {α : Type} {action : Action α} (h : Asks Effect.Quiet action) :
    Holds (Shut shut) action fun _ => Shut shut := by
  intro history s steps a s' hshut hrun
  have hsame : s' = s := hrun.socket_eq fun c hc =>
    h hrun.follows c.exchange (List.mem_map_of_mem hc)
  rwa [hsame]

theorem shut_close : Holds Anywhere (Action.channel .close) fun _ => Shut shut := by
  refine Holds.call fun history s answer streams s' _ hcarries => ?_
  cases hcarries with
  | beside h => exact absurd rfl (h _)
  | channel hperform =>
    have hclose : Ensures (s.perform .close) fun _ (_, s') => s'.stream = none := by
      refine Ensures.bind s.drop_ensures fun streams s' hdrop => Ensures.done hdrop.1
    exact fun _ => hclose hperform

/-- A request leaves a stream exactly if the worker answered it. -/
theorem request_keeps (request : Request) :
    Holds Anywhere (Action.request request) fun answer history s =>
      ∃ before streams, history = before ++ [⟨⟨.channel (.call request), answer⟩, streams⟩] ∧
        (s.stream.isSome ↔ FromWorker answer) := by
  refine Holds.call fun history s answer streams s' _ hcarries => ?_
  cases hcarries with
  | beside h => exact absurd rfl (h _)
  | channel hperform => exact ⟨history, streams, rfl, s.call_keeps request hperform⟩

namespace Connection

/-- How connecting leaves the connection: open with an accepted token, or without a stream. -/
def Opened : Bool × Connection → Standing
  | (false, _) => fun _ s => s.stream = none
  | (true, c) => fun _ s => c.state = .authenticated ∧ s.stream.isSome

theorem shut_giveUp (c : Connection) : Holds Anywhere c.close fun _ => Shut shut :=
  Holds.bind shut_close fun _ => Holds.done fun _ _ h => h

theorem connect_opens (c : Connection) : Holds Anywhere c.connect Opened := by
  have hgiveUp : Holds Anywhere (c.close >>= fun c => Program.done (false, c)) Opened := by
    have hclose : Holds Anywhere c.close fun _ => Shut True := c.shut_giveUp
    exact Holds.bind hclose fun _ => Holds.done fun _ _ h => h trivial
  have hopen : Holds Anywhere (Action.channel (.connect c.address)) fun opened _ s =>
      opened = .ok () ↔ s.stream.isSome := by
    refine Holds.call fun history s answer streams s' _ hcarries => ?_
    cases hcarries with
    | beside h => exact absurd rfl (h _)
    | channel hperform =>
      obtain ⟨-, -, -, hok⟩ := s.connect_ensures c.address hperform
      exact hok
  refine Holds.bind hopen fun opened => ?_
  cases opened with
  | error e =>
    refine Holds.done fun history s h => ?_
    simpa [Opened] using h
  | ok =>
    refine Holds.bind (anywhere _) fun reading => ?_
    cases reading with
    | error fault => exact hgiveUp
    | ok token =>
      refine Holds.bind (request_keeps _) fun answer => ?_
      cases answer with
      | error e => exact hgiveUp.start fun _ _ _ => trivial
      | ok =>
        refine Holds.done ?_
        rintro history s ⟨-, -, -, hkept⟩
        exact ⟨rfl, hkept.mpr (fromWorker_ok ())⟩

theorem connectAgain_opens (c : Connection) (delay more : Nat) :
    Holds Anywhere (c.connectAgain delay more) Opened := by
  induction more generalizing c with
  | zero => exact c.connect_opens
  | succ more ih =>
    refine Holds.bind c.connect_opens ?_
    rintro ⟨connected, c'⟩
    cases connected with
    | true => exact Holds.done fun _ _ h => h
    | false => exact Holds.bind (anywhere _) fun _ => ih c'

end Connection

/-! ### Setting up -/

namespace Controller

variable (c : Controller) (name : String) (connection : Connection)

/-- Whether the worker quits or not, the channel is closed then. -/
theorem shut_quitGracefully :
    Holds Anywhere (c.quitGracefully name connection) fun _ => Shut shut := by
  refine Holds.bind connection.connect_opens ?_
  rintro ⟨connected, connection₁⟩
  cases connected with
  | false => exact Holds.done fun _ _ h _ => h
  | true =>
    refine Holds.bind (anywhere _) fun answer => ?_
    have hclose : Holds Anywhere connection₁.close fun _ => Shut shut := connection₁.shut_giveUp
    refine Holds.bind hclose fun connection₂ => ?_
    cases answer with
    | error e => exact Holds.done fun _ _ h => h
    | ok =>
      exact Holds.bind (shut_quiet (outside_waitForExit ..).quiet) fun _ =>
        Holds.done fun _ _ h => h

end Controller

theorem kept_shut : Kept fun _ => Shut shut where
  outside := fun _ _ houtside => shut_quiet houtside.quiet
  quit := fun controller name c =>
    (controller.shut_quitGracefully name c).start fun _ _ _ => trivial

namespace SetupPlan

variable (plan : SetupPlan) (a : Attempt)

/-- The attempt ended with what the worker is told about the host, and the stream is as the answer
to it left it. -/
structure Told (plan : SetupPlan) (connection : Connection) (history : List Carried) (s : Socket) :
    Prop where
  state_eq : connection.state = .authenticated
  last : ∃ before answer streams, history = before ++
      [⟨⟨.channel (.call (.setHostInfo plan.host.model plan.host.osVersion)), answer⟩, streams⟩] ∧
    (s.stream.isSome ↔ FromWorker answer)

/-- How the connection is left: shut by a failure, or as the last answer left it. -/
def Left (plan : SetupPlan) (shut : Prop) : Bool × Attempt → Standing
  | (false, _) => Shut shut
  | (true, a) => plan.Told a.connection

theorem introduce_leaves (hstate : a.connection.state = .authenticated) :
    Holds Anywhere (plan.introduce a) (plan.Left shut) := by
  refine Holds.bind (anywhere _) fun answer => ?_
  cases answer with
  | error e => exact Holds.bind a.connection.shut_giveUp fun _ => Holds.done fun _ _ h => h
  | ok preferences =>
    refine Holds.bind (anywhere _) fun status => ?_
    refine Holds.bind (request_keeps _) fun answer => Holds.done ?_
    rintro history s ⟨before, streams, hlast, hkept⟩
    exact ⟨hstate, before, answer, streams, hlast, hkept⟩

theorem steps_leaves : Holds (Shut shut) (plan.steps a) (plan.Left shut) := by
  refine Holds.bind (kept_shut.install plan a) ?_
  rintro ⟨ok, a₁⟩
  cases ok with
  | false => exact Holds.done fun _ _ h => h
  | true =>
    refine Holds.bind (kept_shut.ensureRunning plan a₁) ?_
    rintro ⟨ok, a₂⟩
    cases ok with
    | false => exact Holds.done fun _ _ h => h
    | true =>
      refine Holds.bind ((Connection.connectAgain_opens ..).start fun _ _ _ => trivial) ?_
      rintro ⟨connected, connection⟩
      cases connected with
      | false => exact Holds.done fun _ _ h _ => h
      | true =>
        refine Holds.of_fact (fun _ _ h => h.1) fun hstate => ?_
        have hintroduce : Holds Anywhere _ (plan.Left shut) :=
          plan.introduce_leaves { a₂ with connection } hstate
        exact hintroduce.start fun _ _ _ => trivial

/-- An attempt that fails leaves no stream, unless there was one that it never came to use. One that
succeeds leaves the stream as the worker's last answer left it. -/
theorem run_leaves {s s' : Socket} {steps : List Carried} {ok : Bool} {a' : Attempt}
    (hrun : OverSocket s (plan.run a) steps (ok, a') s') :
    (ok = false → s.stream = none → s'.stream = none) ∧
      (ok = true → ∃ before, plan.Told a'.connection before s' ∧
        steps = before ++ [⟨⟨.post (.setup .available), ()⟩, []⟩]) := by
  obtain ⟨first, rest, status, s₁, rfl, hfirst, hrest⟩ := OverSocket.bind_iff.mp hrun
  obtain ⟨second, third, ⟨ok', a₁⟩, s₂, rfl, hsecond, hthird⟩ := OverSocket.bind_iff.mp hrest
  have hs₁ : s₁ = s := hfirst.socket_eq fun c hc =>
    quiet_post _ _ hfirst.follows c.exchange (List.mem_map_of_mem hc)
  subst hs₁
  have hshut : Shut (s₁.stream = none) first s₁ := id
  have hleft : plan.Left (s₁.stream = none) (ok', a₁) (first ++ second) s₂ :=
    plan.steps_leaves { a with status } hshut hsecond
  cases hthird with
  | ask step rest =>
    cases rest
    obtain ⟨hstreams, rfl⟩ := step.quiet trivial
    cases hstreams
    constructor
    · rintro rfl
      exact hleft
    · rintro rfl
      exact ⟨first ++ second, hleft, by simp⟩

end SetupPlan

end Overseer
