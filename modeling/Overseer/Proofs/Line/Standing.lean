import Overseer.Connection
import Overseer.Proofs.Line.Discipline
import Overseer.Proofs.Outside

/-!
How each operation leaves the connection.

`Held` adds to `Tracks` what is known of the connection whose stream the socket holds: that nothing
was asked yet, that the token was read, or that it was accepted. Each operation of the channel has
one rule, and everything that is not one leaves any such knowledge as it is.
-/

namespace Overseer

open Program

/-- The socket tracks the newest connection, and while it holds its stream this is known of it. -/
structure Held (tokenFile : Path) (known : StreamId → List Carried → Prop)
    (history : List Carried) (s : Socket) : Prop where
  tracks : Tracks tokenFile history s
  known : ∀ stream past, s.stream = some stream → newest history = some (stream, past) →
    known stream past

/-- The socket tracks the newest connection, and holds no stream. -/
structure Down (tokenFile : Path) (history : List Carried) (s : Socket) : Prop where
  tracks : Tracks tokenFile history s
  none : s.stream = .none

theorem Down.held {tokenFile : Path} {known : StreamId → List Carried → Prop}
    {history : List Carried} {s : Socket} (h : Down tokenFile history s) :
    Held tokenFile known history s where
  tracks := h.tracks
  known := fun stream past hstream _ => by
    rw [h.none] at hstream
    cases hstream

/-! ### Quiet effects -/

/-- An effect that does nothing on the channel but look at it. -/
def Effect.Quiet : Effect → Prop
  | .channel .isAlive => True
  | .channel _ => False
  | _ => True

theorem Effect.Quiet.not_call {effect : Effect} (h : effect.Quiet) (request : Request) :
    effect ≠ .channel (.call request) := by
  rintro rfl
  exact h

theorem Carries.quiet {s s' : Socket} {c : Carried} (h : Carries s c s')
    (hquiet : c.exchange.op.Quiet) : c.streams = [] ∧ s' = s := by
  cases h with
  | @channel s' op answer streams hperform =>
    cases op with
    | isAlive =>
      cases hperform
      exact ⟨rfl, rfl⟩
    | connect address => cases hquiet
    | call request => cases hquiet
    | close => cases hquiet
  | beside h => exact ⟨rfl, rfl⟩

section Quiet

variable {tokenFile : Path} {known known' : StreamId → List Carried → Prop}
  {history : List Carried} {s s' : Socket} {c : Carried}

/-- What is known of a connection may be extended by what a quiet step adds. -/
theorem Held.quiet (h : Held tokenFile known history s) (hcarries : Carries s c s')
    (hquiet : c.exchange.op.Quiet)
    (hknown : ∀ stream past, known stream past → known' stream (past ++ [c])) :
    Held tokenFile known' (history ++ [c]) s' := by
  obtain ⟨hstreams, rfl⟩ := hcarries.quiet hquiet
  refine ⟨h.tracks.quiet hstreams hquiet.not_call, ?_⟩
  intro stream past hstream hnewest
  have hopened : opened? c.streams = none := by
    rw [hstreams]
    rfl
  rw [newest_concat_of_unopened hopened] at hnewest
  obtain ⟨⟨stream', past'⟩, hnewest', heq⟩ := Option.map_eq_some_iff.mp hnewest
  cases heq
  exact hknown _ _ (h.known _ _ hstream hnewest')

/-- Knowledge of a connection that quiet steps do not touch. -/
def Lasting (known : StreamId → List Carried → Prop) : Prop :=
  ∀ stream past (c : Carried), c.exchange.op.Quiet → known stream past →
    known stream (past ++ [c])

theorem Held.quiet_run {α : Type} {action : Action α} {steps : List Carried} {a : α}
    (hlasting : Lasting known) (h : Held tokenFile known history s)
    (hrun : OverSocket s action steps a s') (hquiet : ∀ c ∈ steps, c.exchange.op.Quiet) :
    Held tokenFile known (history ++ steps) s' := by
  induction hrun generalizing history with
  | done s a => rwa [List.append_nil]
  | ask step rest ih =>
    obtain ⟨hfirst, hrest⟩ := List.forall_mem_cons.mp hquiet
    have hstep := h.quiet step hfirst fun stream past => hlasting stream past _ hfirst
    rw [List.append_cons]
    exact ih hstep hrest

theorem OverSocket.socket_eq {α : Type} {action : Action α} {steps : List Carried} {a : α}
    (hrun : OverSocket s action steps a s') (hquiet : ∀ c ∈ steps, c.exchange.op.Quiet) :
    s' = s := by
  induction hrun with
  | done s a => rfl
  | ask step rest ih =>
    obtain ⟨hfirst, hrest⟩ := List.forall_mem_cons.mp hquiet
    exact (ih hrest).trans (step.quiet hfirst).2

end Quiet

/-! ### Operations of the channel -/

section Operations

variable {tokenFile : Path} {history : List Carried} {s s' : Socket}

theorem holds_close :
    Holds (Tracks tokenFile) (Action.channel .close) fun _ => Down tokenFile := by
  refine Holds.call fun history s answer streams s' htracks hcarries => ?_
  cases hcarries with
  | beside h => exact absurd rfl (h _)
  | channel hperform =>
    have hclose : Ensures (s.perform .close) fun streams (_, s') => s'.stream = none ∧
        writes streams = [] ∧ opened? streams = none ∧ closes streams = s.stream.toList := by
      refine Ensures.bind s.drop_ensures fun streams s' hdrop => Ensures.done ?_
      rw [List.append_nil]
      exact hdrop
    obtain ⟨hnone, hwrites, hopened, hcloses⟩ := hclose hperform
    refine ⟨htracks.drop (permitted_of_writes_eq_nil hwrites) hopened hnone ?_, hnone⟩
    intro stream hstream
    simp [hcloses, hstream]

/-- A new connection was not asked anything yet. -/
theorem holds_connect (address : Path) :
    Holds (Tracks tokenFile) (Action.channel (.connect address)) fun
      | .ok _ => Held tokenFile fun _ past => Silent past
      | .error _ => Down tokenFile := by
  refine Holds.call fun history s answer streams s' htracks hcarries => ?_
  cases hcarries with
  | beside h => exact absurd rfl (h _)
  | channel hperform =>
    obtain ⟨hwrites, hcloses, hopened, hok⟩ := s.connect_ensures address hperform
    cases hstream : s'.stream with
    | none =>
      rw [hstream] at hopened hok
      cases answer with
      | ok => simp at hok
      | error e =>
        refine ⟨htracks.drop (permitted_of_writes_eq_nil hwrites) hopened hstream ?_, hstream⟩
        intro stream hheld
        simp [hcloses, hheld]
    | some stream =>
      rw [hstream] at hopened hok
      cases answer with
      | error e => simp at hok
      | ok =>
        refine ⟨htracks.open hwrites hopened hstream, ?_⟩
        intro stream' past hstream' hnewest
        rw [newest_concat_of_opened hopened] at hnewest
        cases hnewest
        simp [Silent]

/-- A call that the standing of the connection permits. If the socket still holds a stream
afterwards, it is the same one, and the call was answered on it. -/
theorem Held.call {known : StreamId → List Carried → Prop} {request : Request}
    {answer : Except ChannelError request.Reply} {streams : List (Exchange Streams)}
    (h : Held tokenFile known history s)
    (hknown : ∀ stream past, known stream past →
      Presents tokenFile request past ∨ Authenticated tokenFile stream past)
    (hcarries : Carries s ⟨⟨.channel (.call request), answer⟩, streams⟩ s') :
    Tracks tokenFile (history ++ [⟨⟨.channel (.call request), answer⟩, streams⟩]) s' ∧
      ∀ stream past, s'.stream = some stream →
        newest (history ++ [⟨⟨.channel (.call request), answer⟩, streams⟩]) = some (stream, past) →
        ∃ past' response, s.stream = some stream ∧ known stream past' ∧
          Exchanged stream request response streams ∧ answer = request.judge response ∧
          past = past' ++ [⟨⟨.channel (.call request), answer⟩, streams⟩] := by
  cases hcarries with
  | beside h => exact absurd rfl (h _)
  | channel hperform =>
    have hcall := s.call_ensures request hperform
    cases hstream : s.stream with
    | none =>
      rw [hstream] at hcall
      obtain ⟨rfl, rfl⟩ := hcall
      refine ⟨h.tracks.drop (permitted_of_writes_eq_nil rfl) rfl hstream ?_, ?_⟩
      · intro stream hheld
        rw [hstream] at hheld
        cases hheld
      · intro stream past hheld
        rw [hstream] at hheld
        cases hheld
    | some stream =>
      rw [hstream] at hcall
      obtain ⟨past, hnewest, hunbroken⟩ := (h.tracks.held_iff stream).mp hstream
      have hstanding := h.known stream past hstream hnewest
      have hpermitted : WritesOnly stream request streams →
          Permitted tokenFile history ⟨⟨.channel (.call request), answer⟩, streams⟩ := by
        rintro (hwrites | ⟨frame, hframe, hwrites⟩)
        · exact permitted_of_writes_eq_nil hwrites
        · exact fun _ => ⟨stream, past, request, frame, hnewest, rfl, hframe, hwrites, hunbroken,
            hknown stream past hstanding⟩
      rcases hcall with ⟨response, hexchanged, rfl, rfl⟩ | ⟨hbroken, hnone⟩
      · have hsound := Carried.Answered.sound ⟨streams, rfl, hexchanged⟩
        refine ⟨h.tracks.step (hpermitted hexchanged.writesOnly) hexchanged.opened?_eq_none ?_, ?_⟩
        · intro stream'
          refine ⟨fun hheld => ⟨hheld, ?_⟩, And.left⟩
          cases hstream.symm.trans hheld
          exact hsound
        · intro stream' past' hheld hnewest'
          cases hstream.symm.trans hheld
          rw [newest_concat_of_unopened hexchanged.opened?_eq_none, hnewest] at hnewest'
          cases hnewest'
          exact ⟨past, response, rfl, hstanding, hexchanged, rfl, rfl⟩
      · refine ⟨h.tracks.drop (hpermitted hbroken.written) hbroken.unopened hnone ?_, ?_⟩
        · intro stream' hheld
          cases hstream.symm.trans hheld
          exact hbroken.closed
        · intro stream' past' hheld
          rw [hnone] at hheld
          cases hheld

end Operations

/-! ### Connections at rest -/

/-- A connection says that it is alive if it is authenticated and the socket holds a stream. -/
theorem Connection.overSocket_isAlive {c : Connection} {s s' : Socket} {steps : List Carried}
    {alive : Bool} (h : OverSocket s c.isAlive steps alive s') :
    s' = s ∧ (alive = true ↔ c.state = .authenticated ∧ s.stream.isSome) := by
  unfold isAlive at h
  cases hstate : c.state with
  | authenticated =>
    rw [hstate] at h
    cases h with
    | ask step rest =>
      cases rest
      cases step with
      | beside hbeside => exact absurd rfl (hbeside _)
      | channel hperform =>
        cases hperform
        simp
  | disconnected =>
    rw [hstate] at h
    cases h
    simp
  | connecting =>
    rw [hstate] at h
    cases h
    simp

section Rest

variable {tokenFile : Path} {connection : Connection}

theorem Authenticated.append {stream : StreamId} {past : List Carried}
    (h : Authenticated tokenFile stream past) (c : Carried) :
    Authenticated tokenFile stream (past ++ [c]) := by
  obtain ⟨before, request, call, after, rfl, hpresents, hanswered⟩ := h
  exact ⟨before, request, call, after ++ [c], by simp, hpresents, hanswered⟩

theorem lasting_authenticated : Lasting (Authenticated tokenFile) :=
  fun _ _ c _ h => h.append c

/-- Between two operations a stream is held only if the token was accepted on it, and then the
connection says so. -/
structure Settled (tokenFile : Path) (connection : Connection) (history : List Carried)
    (s : Socket) : Prop where
  tokenFile_eq : connection.tokenFile = tokenFile
  held : Held tokenFile (Authenticated tokenFile) history s
  state_eq : s.stream.isSome → connection.state = .authenticated

theorem Down.settled {history : List Carried} {s : Socket}
    (htoken : connection.tokenFile = tokenFile) (h : Down tokenFile history s) :
    Settled tokenFile connection history s where
  tokenFile_eq := htoken
  held := h.held
  state_eq := fun hsome => by
    rw [h.none] at hsome
    cases hsome

/-- Actions that do nothing on the channel but look at it leave the connection at rest. -/
theorem holds_quiet {α : Type} {action : Action α} (hquiet : Asks Effect.Quiet action) :
    Holds (Settled tokenFile connection) action fun _ => Settled tokenFile connection := by
  intro history s steps a s' hsettled hrun
  have hsteps : ∀ c ∈ steps, c.exchange.op.Quiet := fun c hc =>
    hquiet hrun.follows c.exchange (List.mem_map_of_mem hc)
  refine ⟨hsettled.tokenFile_eq, ?_, ?_⟩
  · exact hsettled.held.quiet_run lasting_authenticated hrun hsteps
  · rw [hrun.socket_eq hsteps]
    exact hsettled.state_eq

/-- Any request may be made on a connection at rest. -/
theorem holds_request (request : Request) :
    Holds (Settled tokenFile connection) (Action.request request)
      fun _ => Settled tokenFile connection := by
  refine Holds.call fun history s answer streams s' hsettled hcarries => ?_
  obtain ⟨htracks, hkept⟩ := hsettled.held.call (fun _ _ hknown => .inr hknown) hcarries
  refine ⟨hsettled.tokenFile_eq, ⟨htracks, ?_⟩, ?_⟩
  · intro stream past hstream hnewest
    obtain ⟨past', response, -, hknown, -, -, rfl⟩ := hkept stream past hstream hnewest
    exact hknown.append _
  · intro hsome
    obtain ⟨stream, hstream⟩ := Option.isSome_iff_exists.mp hsome
    obtain ⟨past, hnewest, -⟩ := (htracks.held_iff stream).mp hstream
    obtain ⟨past', response, hheld, -⟩ := hkept stream past hstream hnewest
    exact hsettled.state_eq (Option.isSome_of_mem hheld)

end Rest

/-! ### Authentication -/

section Authentication

variable {tokenFile : Path}

/-- Only one response accepts a token. -/
theorem response_of_judge_authenticate {token : String} {response : Response}
    (h : (Request.authenticate token).judge response = .ok ()) : response = .ok := by
  cases response <;> first | rfl | cases h

theorem holds_authenticate (token : String) :
    Holds (Held tokenFile fun _ past => Presents tokenFile (.authenticate token) past)
      (Action.request (.authenticate token)) fun
      | .ok _ => Held tokenFile (Authenticated tokenFile)
      | .error _ => Tracks tokenFile := by
  refine Holds.call fun history s answer streams s' hheld hcarries => ?_
  obtain ⟨htracks, hkept⟩ := hheld.call (fun _ _ hknown => .inl hknown) hcarries
  cases answer with
  | error e => exact htracks
  | ok =>
    refine ⟨htracks, fun stream past hstream hnewest => ?_⟩
    obtain ⟨past', response, -, hpresents, hexchanged, hanswer, rfl⟩ :=
      hkept stream past hstream hnewest
    obtain rfl := response_of_judge_authenticate hanswer.symm
    exact ⟨past', _, _, [], rfl, hpresents, streams, rfl, hexchanged⟩

/-- The token that is read is the one that may be presented. -/
theorem holds_readToken :
    Holds (Held tokenFile fun _ past => Silent past) (Action.files (Files.readText tokenFile)) fun
      | .ok token => Held tokenFile fun _ past =>
          Presents tokenFile (.authenticate (Text.trim token)) past
      | .error _ => Tracks tokenFile := by
  refine Holds.call fun history s answer streams s' hheld hcarries => ?_
  obtain ⟨rfl, -⟩ := hcarries.quiet trivial
  have hsilent : ∀ past, Silent past →
      Silent (past ++ [⟨⟨.file (.readText tokenFile), answer⟩, []⟩]) := by
    intro past hpast
    refine List.forall_mem_append.mpr ⟨hpast, ?_⟩
    simp
  cases answer with
  | error fault =>
    exact (hheld.quiet hcarries trivial fun _ past hpast => hsilent past hpast).tracks
  | ok token =>
    refine hheld.quiet hcarries trivial fun _ past hpast => ?_
    exact ⟨hsilent past hpast, token, by simp, rfl⟩

end Authentication

end Overseer
