import Overseer.Channel.Socket
import Overseer.Proofs.Conversations

/-!
What the channel does on its stream.

A call on an open stream either sends one frame and takes one back whose payload is a response
(`Exchanged`), or it gives the stream up, having sent at most its own frame (`Broken`). There is no
third way, so after a call the stream is either where the next request may begin or gone.
-/

namespace Overseer

open Program

/-! ### Views of stream operations -/

/-- What was written, in order, each with its stream. -/
def writes (streams : List (Exchange Streams)) : List (StreamId × ByteArray) :=
  streams.filterMap fun
    | ⟨.write stream bytes _, _⟩ => some (stream, bytes)
    | _ => none

/-- The streams that were closed, in order. -/
def closes (streams : List (Exchange Streams)) : List StreamId :=
  streams.filterMap fun
    | ⟨.close stream, _⟩ => some stream
    | _ => none

/-- The stream that was opened first, if one was. -/
def opened? (streams : List (Exchange Streams)) : Option StreamId :=
  streams.findSome? fun
    | ⟨.connect _, .ok stream⟩ => some stream
    | _ => none

section Views

variable (first second : List (Exchange Streams))

@[simp] theorem writes_append : writes (first ++ second) = writes first ++ writes second :=
  List.filterMap_append ..

@[simp] theorem closes_append : closes (first ++ second) = closes first ++ closes second :=
  List.filterMap_append ..

@[simp] theorem opened?_append :
    opened? (first ++ second) = (opened? first).or (opened? second) :=
  List.findSome?_append

end Views

/-! ### Calls -/

/-- One frame went out with the request, and one came back with the response. -/
inductive Exchanged (stream : StreamId) (request : Request) (response : Response) :
    List (Exchange Streams) → Prop where
  | intro {now deadline frame header payload}
      (encoded : Frame.encode request.encode.toUTF8 = .ok frame)
      (bounded : Frame.lengthOf header ≤ Frame.maxLength)
      (decoded : Response.decode payload = some response) :
      Exchanged stream request response
        [⟨.clock, now⟩, ⟨.write stream frame deadline, .ok ()⟩,
          ⟨.read stream Frame.headerLength deadline, .ok header⟩,
          ⟨.read stream (Frame.lengthOf header) deadline, .ok payload⟩]

/-- At most the frame of the request went out. -/
def WritesOnly (stream : StreamId) (request : Request) (streams : List (Exchange Streams)) :
    Prop :=
  writes streams = [] ∨ ∃ frame, Frame.encode request.encode.toUTF8 = .ok frame ∧
    writes streams = [(stream, frame)]

/-- The request was not carried to its end, and the stream was given up. -/
structure Broken (stream : StreamId) (request : Request) (streams : List (Exchange Streams)) :
    Prop where
  written : WritesOnly stream request streams
  unopened : opened? streams = none
  closed : stream ∈ closes streams

section Exchanged

variable {stream : StreamId} {request : Request} {response : Response}
  {streams : List (Exchange Streams)}

theorem Exchanged.closes_eq_nil (h : Exchanged stream request response streams) :
    closes streams = [] := by
  cases h
  rfl

theorem Exchanged.opened?_eq_none (h : Exchanged stream request response streams) :
    opened? streams = none := by
  cases h
  rfl

theorem Exchanged.writesOnly (h : Exchanged stream request response streams) :
    WritesOnly stream request streams := by
  cases h with
  | intro encoded bounded decoded => exact .inr ⟨_, encoded, rfl⟩

end Exchanged

namespace Socket

/-- Sending either sends the whole frame, or at most tries to. -/
theorem send_ensures (stream : StreamId) (request : Request) (deadline : Nat) :
    Ensures (send stream request deadline) fun streams sent =>
      opened? streams = none ∧ WritesOnly stream request streams ∧
        (sent = .ok () → ∃ frame, Frame.encode request.encode.toUTF8 = .ok frame ∧
          streams = [⟨.write stream frame deadline, .ok ()⟩]) := by
  unfold send
  cases hframe : Frame.encode request.encode.toUTF8 with
  | error fault => exact Ensures.done ⟨rfl, .inl rfl, nofun⟩
  | ok frame =>
    refine Ensures.question fun written => Ensures.done ⟨rfl, .inr ⟨frame, hframe, rfl⟩, ?_⟩
    cases written with
    | error fault => exact nofun
    | ok => exact fun _ => ⟨frame, rfl, rfl⟩

/-- Nothing is written while a frame is taken. -/
theorem receive_ensures (stream : StreamId) (deadline : Nat) :
    Ensures (receive stream deadline) fun streams received =>
      opened? streams = none ∧ writes streams = [] ∧
        ∀ payload, received = .ok payload → ∃ header,
          Frame.lengthOf header ≤ Frame.maxLength ∧ streams =
            [⟨.read stream Frame.headerLength deadline, .ok header⟩,
              ⟨.read stream (Frame.lengthOf header) deadline, .ok payload⟩] := by
  apply Ensures.question
  intro header
  cases header with
  | error fault => exact Ensures.done ⟨rfl, rfl, nofun⟩
  | ok header =>
    by_cases hlength : Frame.maxLength < Frame.lengthOf header
    · simp only [if_pos hlength]
      exact Ensures.done ⟨rfl, rfl, nofun⟩
    · simp only [if_neg hlength]
      refine Ensures.question fun answer => Ensures.done ⟨rfl, rfl, ?_⟩
      intro payload hpayload
      cases answer with
      | error fault => cases hpayload
      | ok read =>
        cases hpayload
        exact ⟨header, Nat.le_of_not_lt hlength, rfl⟩

theorem exchange_ensures (stream : StreamId) (request : Request) (now deadline : Nat) :
    Ensures (exchange stream request deadline) fun streams result =>
      opened? streams = none ∧ WritesOnly stream request streams ∧
        ∀ response, result = .ok response →
          Exchanged stream request response (⟨.clock, now⟩ :: streams) := by
  refine Ensures.bind (send_ensures ..) ?_
  rintro first sent ⟨hfirst, hwritten, hsent⟩
  cases sent with
  | error e =>
    refine Ensures.done ?_
    rw [List.append_nil]
    exact ⟨hfirst, hwritten, fun _ hok => by cases hok⟩
  | ok =>
    obtain ⟨frame, hframe, rfl⟩ := hsent rfl
    refine Ensures.bind (receive_ensures ..) ?_
    rintro second received ⟨hsecond, hunwritten, hreceived⟩
    have hopened : opened? ([⟨.write stream frame deadline, .ok ()⟩] ++ (second ++ [])) = none := by
      rw [List.append_nil, opened?_append, hfirst, hsecond]
      rfl
    have honly : WritesOnly stream request
        ([⟨.write stream frame deadline, .ok ()⟩] ++ (second ++ [])) := by
      refine .inr ⟨frame, hframe, ?_⟩
      rw [List.append_nil, writes_append, hunwritten]
      rfl
    cases received with
    | error e => exact Ensures.done ⟨hopened, honly, fun _ hok => by cases hok⟩
    | ok payload =>
      obtain ⟨header, hlength, rfl⟩ := hreceived payload rfl
      cases hdecode : Response.decode payload with
      | none =>
        simp only [hdecode]
        exact Ensures.done ⟨hopened, honly, fun _ hok => by cases hok⟩
      | some response =>
        simp only [hdecode]
        refine Ensures.done ⟨hopened, honly, ?_⟩
        intro response' hresponse
        cases hresponse
        exact .intro hframe hlength hdecode

theorem drop_ensures (s : Socket) :
    Ensures s.drop fun streams s' =>
      s'.stream = none ∧ writes streams = [] ∧ opened? streams = none ∧
        closes streams = s.stream.toList := by
  unfold drop
  cases hstream : s.stream with
  | none => exact Ensures.done ⟨hstream, rfl, rfl, rfl⟩
  | some stream => exact Ensures.question fun _ => Ensures.done ⟨rfl, rfl, rfl, rfl⟩

/-- The stream before is given up in any case, also if there is no new one. -/
theorem connect_ensures (s : Socket) (address : Path) :
    Ensures (s.connect address) fun streams (answer, s') =>
      writes streams = [] ∧ closes streams = s.stream.toList ∧ opened? streams = s'.stream ∧
        (answer = .ok () ↔ s'.stream.isSome) := by
  refine Ensures.bind s.drop_ensures ?_
  rintro first s₁ ⟨hstream, hwrites, hopened, hcloses⟩
  apply Ensures.question
  intro answer
  cases answer with
  | error fault =>
    refine Ensures.done ⟨?_, ?_, ?_, ?_⟩
    · rw [writes_append, hwrites]
      rfl
    · rw [closes_append, hcloses]
      exact List.append_nil _
    · rw [opened?_append, hopened, hstream]
      rfl
    · simp [hstream]
  | ok stream =>
    refine Ensures.done ⟨?_, ?_, ?_, ?_⟩
    · rw [writes_append, hwrites]
      rfl
    · rw [closes_append, hcloses]
      exact List.append_nil _
    · rw [opened?_append, hopened]
      rfl
    · simp

/-- Without a stream nothing is sent; on a stream the call is carried to its end or the stream is
given up. -/
theorem call_ensures (s : Socket) (request : Request) :
    Ensures (s.call request) fun streams (answer, s') =>
      match s.stream with
      | none => streams = [] ∧ s' = s
      | some stream =>
        (∃ response, Exchanged stream request response streams ∧
          answer = request.judge response ∧ s' = s) ∨
        (Broken stream request streams ∧ s'.stream = none) := by
  unfold call
  cases hstream : s.stream with
  | none => exact Ensures.done ⟨rfl, rfl⟩
  | some stream =>
    apply Ensures.question
    intro now
    refine Ensures.bind (exchange_ensures _ _ now _) ?_
    rintro first result ⟨hopened, honly, hexchanged⟩
    cases result with
    | ok response =>
      refine Ensures.done (.inl ⟨response, ?_, rfl, rfl⟩)
      rw [List.append_nil]
      exact hexchanged response rfl
    | error e =>
      refine Ensures.bind s.drop_ensures ?_
      rintro second s' ⟨hdropped, hwrites, hunopened, hcloses⟩
      refine Ensures.done (.inr ⟨{ written := ?_, unopened := ?_, closed := ?_ }, hdropped⟩)
      · have hsecond : writes (⟨.clock, now⟩ :: (first ++ (second ++ []))) = writes first := by
          rw [List.append_nil]
          exact (writes_append first second).trans (by rw [hwrites, List.append_nil])
        rw [WritesOnly, hsecond]
        exact honly
      · rw [List.append_nil]
        exact (opened?_append first second).trans (by rw [hopened, hunopened]; rfl)
      · rw [List.append_nil]
        have hclosed : stream ∈ closes (first ++ second) := by simp [hcloses, hstream]
        exact hclosed

end Socket

end Overseer
