import Overseer.Proofs.Line.Carried
import Overseer.Proofs.Line.FarEnd
import Overseer.Proofs.Throughout
import Overseer.Proofs.Wire.Messages

/-!
How a call on the channel ends.

A call on an open stream ends as the first frame that comes in says, if that frame holds a response
(`FarEnd.Exchanges`): with the reply if the response is the one that the request asks for, and else
as a rejection or an unexpected response. In every other case it fails for the cause that
`FarEnd.Breaks` gives, and the stream is given up. From then on nothing is sent until a connection
is opened (`Carried.AwaitsOpening`). `call_classified` puts this together.
-/

namespace Overseer

open Program

/-- The response that a request asks for, with the reply in it. -/
inductive Request.Answers : (request : Request) → Response → request.Reply → Prop where
  | authenticate (token : String) : Answers (.authenticate token) .ok ()
  | quit : Answers .quit .ok ()
  | getStatus (status : RunStatus) : Answers .getStatus (.status status) status
  | getState (state : StateReport) : Answers .getState (.state state) state
  | getTransfers (transfers : List Transfer) :
      Answers .getTransfers (.transfers transfers) transfers
  | getAccountManager (info : AccountManager) :
      Answers .getAccountManager (.accountManager info) info
  | getNotices (since : UInt64) (notices : List Notice) :
      Answers (.getNotices since) (.notices notices) notices
  | getPreferences (preferences : Preferences) :
      Answers .getPreferences (.preferences preferences) preferences
  | reportDevice (device : DeviceStatus) : Answers (.reportDevice device) .ok ()
  | setHostInfo (model osVersion : String) : Answers (.setHostInfo model osVersion) .ok ()

theorem Request.accept?_eq_some_iff {request : Request} {response : Response}
    {reply : request.Reply} :
    request.accept? response = some reply ↔ request.Answers response reply := by
  constructor
  · intro h
    cases request <;> cases response <;> cases h <;> constructor
  · intro h
    cases h <;> rfl

namespace Request

variable {request : Request} {response : Response}

theorem judge_eq_ok_iff {reply : request.Reply} :
    request.judge response = .ok reply ↔ request.Answers response reply := by
  rw [← accept?_eq_some_iff]
  unfold judge
  split
  · refine iff_of_false nofun ?_
    cases request <;> exact nofun
  · split
    · rename_i heq
      simp [heq]
    · rename_i heq
      simp [heq]

theorem judge_eq_rejected_iff {message : String} :
    request.judge response = .error (.rejected message) ↔ response = .error message := by
  unfold judge
  split
  · simp
  · rename_i hresponse
    refine iff_of_false ?_ (hresponse message)
    split <;> exact nofun

theorem judge_eq_unexpected_iff {what : String} :
    request.judge response = .error (.unexpectedResponse what) ↔
      what = request.tag ∧ (∀ message, response ≠ .error message) ∧
        ∀ reply, ¬request.Answers response reply := by
  simp only [← accept?_eq_some_iff]
  unfold judge
  split
  · rename_i message
    refine iff_of_false nofun ?_
    rintro ⟨-, hresponse, -⟩
    exact hresponse message rfl
  · rename_i hresponse
    split
    · rename_i reply heq
      refine iff_of_false nofun ?_
      rintro ⟨-, -, hreply⟩
      exact hreply reply heq
    · rename_i heq
      have hother : ∀ message, response ≠ .error message := hresponse
      simp only [heq]
      constructor
      · rintro ⟨⟩
        exact ⟨rfl, hother, nofun⟩
      · rintro ⟨rfl, -, -⟩
        rfl

end Request

/-! ### What comes over the stream -/

namespace FarEnd

variable (f : FarEnd) (request : Request)

/-- The frame of a request goes out. -/
structure Sends (frame : ByteArray) : Prop where
  fits : Frame.encode request.encode.toUTF8 = .ok frame
  accepted : f.accepts = .ok ()

/-- The frame of a request goes out, and the first frame that comes in holds a response. -/
structure Exchanges (frame : ByteArray) (response : Response) (rest : ByteArray) : Prop extends
    f.Sends request frame where
  arrives : ∃ payload, payload.size ≤ Frame.maxLength ∧
    f.incoming = Frame.header payload.size ++ payload ++ rest ∧
    Response.decode payload = some response

/-- Why a request is not answered. -/
inductive Breaks : ChannelError → Prop where
  | oversized (exceeds : Frame.maxLength < request.encode.toUTF8.size) :
      Breaks (.frameTooLarge (min request.encode.toUTF8.size Frame.maxHeader))
  | unsent {fault : StreamFault} (refused : f.accepts = .error fault) :
      Breaks fault.toChannelError
  | tooLong {frame : ByteArray} {length : Nat} (sends : f.Sends request frame)
      (announced : Frame.Announces f.incoming length) (exceeds : Frame.maxLength < length) :
      Breaks (.frameTooLarge length)
  /-- What arrives in time ends before a frame does. -/
  | cut {frame : ByteArray} (sends : f.Sends request frame)
      (ends : ∀ length, Frame.Announces f.incoming length →
        length ≤ Frame.maxLength ∧ f.incoming.size < Frame.headerLength + length) :
      Breaks f.ending.toChannelError
  | garbled {frame payload rest : ByteArray} (sends : f.Sends request frame)
      (bounded : payload.size ≤ Frame.maxLength)
      (arrives : f.incoming = Frame.header payload.size ++ payload ++ rest)
      (undecoded : Response.decode payload = none) : Breaks .codec

variable {f request} {frame rest : ByteArray} {response : Response} {e : ChannelError}

theorem run_clock : run (Program.call (I := Streams) .clock) f = (f.now, f) := rfl

theorem run_send (stream : StreamId) (deadline : Nat) (sends : f.Sends request frame) :
    run (Socket.send stream request deadline) f = (.ok (), f.sending frame) := by
  unfold Socket.send
  rw [sends.fits]
  dsimp only
  rw [run_bind, run_write, sends.accepted]
  rfl

theorem run_exchange_ok (stream : StreamId) (deadline : Nat)
    (h : f.Exchanges request frame response rest) :
    run (Socket.exchange stream request deadline) f =
      (.ok response, { f.sending frame with incoming := rest }) := by
  obtain ⟨payload, hbounded, hincoming, hdecode⟩ := h.arrives
  have hreceive := (f.sending frame).run_receive_frame stream deadline hbounded hincoming
  unfold Socket.exchange
  rw [run_bind, run_send stream deadline h.toSends]
  dsimp only
  rw [run_bind, hreceive]
  dsimp only
  rw [hdecode]
  rfl

/-- The far end settles what a request is answered with. -/
theorem Exchanges.unique {frame' rest' : ByteArray} {response' : Response}
    (h : f.Exchanges request frame response rest)
    (h' : f.Exchanges request frame' response' rest') :
    frame = frame' ∧ response = response' ∧ rest = rest' := by
  have hframe : frame = frame' := Except.ok.inj (h.fits.symm.trans h'.fits)
  have hsame := (run_exchange_ok 0 0 h).symm.trans (run_exchange_ok 0 0 h')
  obtain ⟨hresponse, hrest⟩ := Prod.mk.inj hsame
  exact ⟨hframe, Except.ok.inj hresponse, congrArg FarEnd.incoming hrest⟩

/-- A request that goes out ends as the first frame that comes in says. -/
theorem run_exchange_sent (stream : StreamId) (deadline : Nat) (sends : f.Sends request frame) :
    (run (Socket.exchange stream request deadline) f).1 =
      match Frame.takeAt f.incoming 0 with
      | .ok (payload, _) =>
        match Response.decode payload with
        | none => .error .codec
        | some response => .ok response
      | .error (.tooLarge length) => .error (.frameTooLarge length)
      | .error .incomplete => .error f.ending.toChannelError := by
  have hreceive := (f.sending frame).run_receive stream deadline
  rw [show (f.sending frame).incoming = f.incoming from rfl] at hreceive
  unfold Socket.exchange
  rw [run_bind, run_send stream deadline sends]
  dsimp only
  rw [run_bind, hreceive]
  cases Frame.takeAt f.incoming 0 with
  | ok taken =>
    obtain ⟨payload, next⟩ := taken
    cases hdecode : Response.decode payload with
    | none => simp [hdecode]
    | some response => simp [hdecode]
  | error fault => cases fault <;> rfl

/-- A request is answered, or it breaks for a cause. -/
theorem run_exchange (f : FarEnd) (request : Request) (stream : StreamId) (deadline : Nat) :
    (∃ frame response rest, f.Exchanges request frame response rest) ∨
      ∃ e, f.Breaks request e ∧ (run (Socket.exchange stream request deadline) f).1 = .error e := by
  cases hencode : Frame.encode request.encode.toUTF8 with
  | error fault =>
    refine .inr ⟨fault.toChannelError, ?_, ?_⟩
    · unfold Frame.encode at hencode
      split at hencode
      · rename_i exceeds
        cases hencode
        exact .oversized exceeds
      · cases hencode
    · unfold Socket.exchange Socket.send
      rw [hencode]
      rfl
  | ok frame =>
    cases haccepts : f.accepts with
    | error fault =>
      refine .inr ⟨fault.toChannelError, .unsent haccepts, ?_⟩
      unfold Socket.exchange Socket.send
      rw [hencode]
      dsimp only
      rw [run_bind, run_bind, run_write, haccepts]
      rfl
    | ok u =>
      have sends : f.Sends request frame := ⟨hencode, haccepts⟩
      rw [run_exchange_sent stream deadline sends]
      have htaken := Frame.takeAt_taken f.incoming
      generalize Frame.takeAt f.incoming 0 = taken at htaken
      cases htaken with
      | tooLarge announced exceeds => exact .inr ⟨_, .tooLong sends announced exceeds, rfl⟩
      | incomplete ends => exact .inr ⟨_, .cut sends ends, rfl⟩
      | @frame payload after bounded arrives =>
        cases hdecode : Response.decode payload with
        | none => exact .inr ⟨_, .garbled sends bounded arrives hdecode, by simp [hdecode]⟩
        | some response =>
          exact .inl ⟨frame, response, after, sends, payload, bounded, arrives, hdecode⟩

/-- The causes are failures of the stream or of its frames. -/
theorem Breaks.kind_mem (h : f.Breaks request e) :
    e.kind ∈ ["Io", "Codec", "FrameTooLarge", "Timeout"] := by
  have hfault (fault : StreamFault) :
      fault.toChannelError.kind ∈ ["Io", "Codec", "FrameTooLarge", "Timeout"] := by
    cases fault with
    | io fault => exact List.mem_cons_self
    | timedOut => decide
  cases h with
  | oversized exceeds => exact List.mem_of_elem_eq_true rfl
  | unsent refused => exact hfault _
  | tooLong sends announced exceeds => exact List.mem_of_elem_eq_true rfl
  | cut sends ends => exact hfault _
  | garbled => decide

end FarEnd

/-! ### Calls -/

namespace Socket

open FarEnd (run)

variable {s : Socket} {stream : StreamId} {request : Request} {f : FarEnd}

theorem run_call (hopen : s.stream = some stream) :
    run (s.call request) f =
      match run (exchange stream request (f.now + s.timeout)) f with
      | (.ok response, f') => ((request.judge response, s), f')
      | (.error e, f') => ((.error e, { s with stream := none }), { f' with isOpen := false }) := by
  have hdrop (f' : FarEnd) :
      run s.drop f' = ({ s with stream := none }, { f' with isOpen := false }) := by
    unfold drop
    rw [hopen]
    rfl
  unfold call
  rw [hopen]
  dsimp only
  rw [FarEnd.run_bind, FarEnd.run_clock, FarEnd.run_bind]
  cases hexchange : run (exchange stream request (f.now + s.timeout)) f with
  | mk result f' =>
    cases result with
    | ok response => rfl
    | error e =>
      dsimp only
      rw [FarEnd.run_bind, hdrop]
      rfl

/-- How a call ends, by what comes over its stream. -/
structure Classifies (s : Socket) (request : Request) (f : FarEnd)
    (answer : Except ChannelError request.Reply) (s' : Socket) (f' : FarEnd) : Prop where
  replied : ∀ reply, answer = .ok reply ↔ ∃ frame response rest,
    f.Exchanges request frame response rest ∧ request.Answers response reply
  rejected : ∀ message, answer = .error (.rejected message) ↔ ∃ frame rest,
    f.Exchanges request frame (.error message) rest
  unexpected : ∀ what, answer = .error (.unexpectedResponse what) ↔ ∃ frame response rest,
    f.Exchanges request frame response rest ∧ what = request.tag ∧
      (∀ message, response ≠ .error message) ∧ ∀ reply, ¬request.Answers response reply
  /-- One frame goes out and one comes in; the stream stays. -/
  kept : ∀ frame response rest, f.Exchanges request frame response rest →
    s' = s ∧ f' = { f.sending frame with incoming := rest }
  broken : (∀ frame response rest, ¬f.Exchanges request frame response rest) →
    s'.stream = none ∧ f'.isOpen = false ∧ ∃ e, answer = .error e ∧ f.Breaks request e ∧
      e.kind ∈ ["Io", "Codec", "FrameTooLarge", "Timeout"]

theorem classifies_of_exchanges {frame rest : ByteArray} {response : Response}
    (h : f.Exchanges request frame response rest) :
    s.Classifies request f (request.judge response) s
      { f.sending frame with incoming := rest } := by
  constructor
  · intro reply
    rw [Request.judge_eq_ok_iff]
    constructor
    · intro hanswers
      exact ⟨frame, response, rest, h, hanswers⟩
    · rintro ⟨frame', response', rest', h', hanswers⟩
      obtain ⟨-, rfl, -⟩ := h.unique h'
      exact hanswers
  · intro message
    rw [Request.judge_eq_rejected_iff]
    constructor
    · rintro rfl
      exact ⟨frame, rest, h⟩
    · rintro ⟨frame', rest', h'⟩
      exact (h.unique h').2.1
  · intro what
    rw [Request.judge_eq_unexpected_iff]
    constructor
    · intro hother
      exact ⟨frame, response, rest, h, hother⟩
    · rintro ⟨frame', response', rest', h', hother⟩
      obtain ⟨-, rfl, -⟩ := h.unique h'
      exact hother
  · intro frame' response' rest' h'
    obtain ⟨rfl, -, rfl⟩ := h.unique h'
    exact ⟨rfl, rfl⟩
  · intro hnone
    exact absurd h (hnone frame response rest)

theorem classifies_of_breaks {e : ChannelError} {f' : FarEnd}
    (hnone : ∀ frame response rest, ¬f.Exchanges request frame response rest)
    (h : f.Breaks request e) :
    s.Classifies request f (.error e) { s with stream := none } { f' with isOpen := false } := by
  have hkind := h.kind_mem
  constructor
  · intro reply
    refine iff_of_false nofun ?_
    rintro ⟨frame, response, rest, h', -⟩
    exact hnone frame response rest h'
  · intro message
    constructor
    · rintro ⟨⟩
      simp [ChannelError.kind] at hkind
    · rintro ⟨frame, rest, h'⟩
      exact absurd h' (hnone frame _ rest)
  · intro what
    constructor
    · rintro ⟨⟩
      simp [ChannelError.kind] at hkind
    · rintro ⟨frame, response, rest, h', -⟩
      exact absurd h' (hnone frame response rest)
  · intro frame response rest h'
    exact absurd h' (hnone frame response rest)
  · intro _
    exact ⟨rfl, rfl, e, rfl, h, hkind⟩

theorem classifies_call (hopen : s.stream = some stream) (request : Request) (f : FarEnd) :
    ∃ answer s' f', run (s.call request) f = ((answer, s'), f') ∧
      s.Classifies request f answer s' f' := by
  rw [run_call hopen]
  rcases FarEnd.run_exchange f request stream (f.now + s.timeout) with
    ⟨frame, response, rest, exchanges⟩ | ⟨e, breaks, hfailed⟩
  · rw [FarEnd.run_exchange_ok stream _ exchanges]
    exact ⟨_, _, _, rfl, classifies_of_exchanges exchanges⟩
  · have hnone frame response rest : ¬f.Exchanges request frame response rest := by
      intro h
      rw [FarEnd.run_exchange_ok stream _ h] at hfailed
      cases hfailed
    cases hexchange : run (exchange stream request (f.now + s.timeout)) f with
    | mk result f' =>
      rw [hexchange] at hfailed
      cases hfailed
      exact ⟨_, _, _, rfl, classifies_of_breaks hnone breaks⟩

end Socket

/-! ### After the stream was given up -/

/-- A connection was opened. -/
def Carried.Opens (c : Carried) : Prop :=
  ∃ address streams, c = ⟨⟨.channel (.connect address), .ok ()⟩, streams⟩

/-- As long as no connection was opened, a call fails at once and sends nothing. -/
def Carried.AwaitsOpening (before : List Carried) (c : Carried) : Prop :=
  (∀ b ∈ before, ¬b.Opens) → ∀ request answer streams,
    c = ⟨⟨.channel (.call request), answer⟩, streams⟩ →
      answer = .error .notConnected ∧ streams = []

/-- Without a stream a step fails if it is a call, and leaves none unless it opens a connection. -/
theorem Carries.of_no_stream {s s' : Socket} {c : Carried} (h : Carries s c s')
    (hstream : s.stream = none) :
    c.AwaitsOpening [] ∧ (¬c.Opens → s'.stream = none) := by
  cases h with
  | beside h =>
    refine ⟨?_, fun _ => hstream⟩
    intro _ request answer streams heq
    cases heq
    exact absurd rfl (h (.call request))
  | @channel _ op answer streams h =>
    cases op with
    | connect address =>
      refine ⟨fun _ _ _ _ => nofun, fun hunopened => ?_⟩
      obtain ⟨-, -, -, hanswer⟩ := Socket.connect_ensures s address h
      cases answer with
      | ok u => exact absurd ⟨address, streams, rfl⟩ hunopened
      | error e => simpa using hanswer
    | isAlive =>
      cases h
      exact ⟨fun _ _ _ _ => nofun, fun _ => hstream⟩
    | call request =>
      have hcall : s.call request = .done (.error .notConnected, s) := by
        unfold Socket.call
        rw [hstream]
        rfl
      change Follows (s.call request) streams (answer, s') at h
      rw [hcall] at h
      cases h
      refine ⟨?_, fun _ => hstream⟩
      intro _ request' answer' streams' heq
      cases heq
      exact ⟨rfl, rfl⟩
    | close =>
      refine ⟨fun _ _ _ _ => nofun, fun _ => ?_⟩
      obtain ⟨first, second, s₁, -, hfirst, hsecond⟩ := follows_bind_iff.mp h
      cases hsecond
      exact (s.drop_ensures hfirst).1

theorem OverSocket.awaitsOpening {α : Type} {s s' : Socket} {action : Action α}
    {steps : List Carried} {a : α} (h : OverSocket s action steps a s')
    (hstream : s.stream = none) : Throughout Carried.AwaitsOpening steps := by
  induction h with
  | done s a => exact throughout_nil
  | @ask s s₁ s' op next answer streams steps a step rest ih =>
    obtain ⟨hfirst, hkept⟩ := step.of_no_stream hstream
    refine throughout_cons.mpr ⟨hfirst, ?_⟩
    intro before c after hsteps hunopened
    obtain ⟨hunopened, hrest⟩ := List.forall_mem_cons.mp hunopened
    exact ih (hkept hunopened) before c after hsteps hrest

/-! ### The classification -/

/-- A call on an open stream ends as what comes over the stream says. When it gives the stream up,
nothing is sent until a connection is opened again, whatever is done in between. An opening that
fails leaves no stream, whether there was one or not. -/
theorem call_classified {s : Socket} {stream : StreamId} (hopen : s.stream = some stream) :
    (∀ request f, ∃ answer s' f', FarEnd.run (s.call request) f = ((answer, s'), f') ∧
      s.Classifies request f answer s' f' ∧
      (s'.stream = none → ∀ (α : Type) (action : Action α) steps a s'',
        OverSocket s' action steps a s'' → Throughout Carried.AwaitsOpening steps)) ∧
    ∀ (before after : Socket) address streams e,
      Follows (before.connect address) streams (.error e, after) → after.stream = none := by
  constructor
  · intro request f
    obtain ⟨answer, s', f', hrun, hclassifies⟩ := Socket.classifies_call hopen request f
    refine ⟨answer, s', f', hrun, hclassifies, ?_⟩
    intro hnone α action steps a s'' hover
    exact hover.awaitsOpening hnone
  · intro before after address streams e h
    obtain ⟨-, -, -, hanswer⟩ := before.connect_ensures address h
    simpa using hanswer

/-- A frame that says that all went well is the answer to the one request and not to the other. -/
theorem call_classified_ok :
    let s : Socket := { stream := some 1 }
    let payload := Response.ok.encode.toUTF8
    let f : FarEnd := { incoming := Frame.header payload.size ++ payload ++ "more".toUTF8 }
    (∃ f', FarEnd.run (s.call .quit) f = ((.ok (), s), f') ∧ f'.incoming = "more".toUTF8) ∧
    ∃ f', FarEnd.run (s.call .getStatus) f =
      ((.error (.unexpectedResponse "get_status"), s), f') ∧ f'.incoming = "more".toUTF8 := by
  intro s payload f
  have hdecode : Response.decode payload = some .ok := Response.decode_encode trivial
  have hexchanges {request : Request} (h : request.encode.toUTF8.size ≤ Frame.maxLength) :
      f.Exchanges request (Frame.header _ ++ request.encode.toUTF8) .ok "more".toUTF8 :=
    ⟨⟨if_neg (Nat.not_lt.mpr h), rfl⟩, payload, by decide +kernel, rfl, hdecode⟩
  obtain ⟨hcalls, -⟩ := call_classified (s := s) rfl
  constructor
  · obtain ⟨answer, s', f', hrun, hclassifies, -⟩ := hcalls .quit f
    have hquit := @hexchanges .quit (by decide +kernel)
    obtain ⟨rfl, rfl⟩ := hclassifies.kept _ _ _ hquit
    rw [(hclassifies.replied ()).mpr ⟨_, _, _, hquit, .quit⟩] at hrun
    exact ⟨_, hrun, rfl⟩
  · obtain ⟨answer, s', f', hrun, hclassifies, -⟩ := hcalls .getStatus f
    have hstatus := @hexchanges .getStatus (by decide +kernel)
    obtain ⟨rfl, rfl⟩ := hclassifies.kept _ _ _ hstatus
    have hother : answer = .error (.unexpectedResponse "get_status") :=
      (hclassifies.unexpected _).mpr ⟨_, _, _, hstatus, rfl, nofun, nofun⟩
    rw [hother] at hrun
    exact ⟨_, hrun, rfl⟩

end Overseer
