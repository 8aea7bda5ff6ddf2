import Overseer.Proofs.Line.Carried
import Overseer.Proofs.Throughout
import Overseer.Text.Blank

/-!
What may be written on a connection, and when.

`Permitted` is the rule for everything that is written: it goes to the newest connection, on which
nothing failed so far, and it is either the first request, which presents the token, or comes after
the token was accepted. The socket holds a stream exactly while its connection is unbroken
(`Tracks`); this is the invariant of every step over the socket, whatever the worker sends.
-/

namespace Overseer

open Program

/-! ### Lines -/

namespace Carried

/-- The call of a request, answered on a stream by a response, which is what the caller is given. -/
def Answered (c : Carried) (stream : StreamId) (request : Request) (response : Response) : Prop :=
  ∃ streams, c = ⟨⟨.channel (.call request), request.judge response⟩, streams⟩ ∧
    Exchanged stream request response streams

/-- The step leaves a stream in use: it does not close it, and a call is answered on it. -/
structure Sound (c : Carried) (stream : StreamId) : Prop where
  unclosed : stream ∉ closes c.streams
  answered : ∀ request, c.exchange.op = .channel (.call request) →
    ∃ response, c.Answered stream request response

theorem sound_of_quiet {c : Carried} (hstreams : c.streams = [])
    (hcall : ∀ request, c.exchange.op ≠ .channel (.call request)) (stream : StreamId) :
    c.Sound stream where
  unclosed := by simp [hstreams, closes]
  answered := fun request hop => absurd hop (hcall request)

theorem Answered.sound {c : Carried} {stream : StreamId} {request : Request} {response : Response}
    (h : c.Answered stream request response) : c.Sound stream := by
  obtain ⟨streams, rfl, hexchanged⟩ := h
  refine ⟨by simp [hexchanged.closes_eq_nil], fun request' hop => ?_⟩
  cases hop
  exact ⟨response, streams, rfl, hexchanged⟩

end Carried

/-- Nothing failed on the connection, and every request on it was answered. -/
def Unbroken (stream : StreamId) (past : List Carried) : Prop := ∀ c ∈ past, c.Sound stream

theorem unbroken_concat {stream : StreamId} {past : List Carried} {c : Carried} :
    Unbroken stream (past ++ [c]) ↔ Unbroken stream past ∧ c.Sound stream := by
  rw [Unbroken, List.forall_mem_append, List.forall_mem_singleton]
  rfl

/-- Nothing was asked yet. -/
def Silent (past : List Carried) : Prop :=
  ∀ c ∈ past, ∀ request, c.exchange.op ≠ .channel (.call request)

/-- Nothing was asked yet, and the request presents the token that was read since the opening. -/
structure Presents (tokenFile : Path) (request : Request) (past : List Carried) : Prop where
  silent : Silent past
  token : ∃ token, ⟨⟨.file (.readText tokenFile), .ok token⟩, []⟩ ∈ past ∧
    request = .authenticate (Text.trim token)

/-- The first request presented the token and was accepted. -/
def Authenticated (tokenFile : Path) (stream : StreamId) (past : List Carried) : Prop :=
  ∃ before request call after, past = before ++ call :: after ∧
    Presents tokenFile request before ∧ call.Answered stream request .ok

/-- Whatever a step writes is the frame of its request, on an unbroken connection, and either the
token is presented or it was accepted before. -/
def Permitted (tokenFile : Path) (before : List Carried) (c : Carried) : Prop :=
  writes c.streams ≠ [] → ∃ stream past request frame,
    newest before = some (stream, past) ∧ c.exchange.op = .channel (.call request) ∧
    Frame.encode request.encode.toUTF8 = .ok frame ∧ writes c.streams = [(stream, frame)] ∧
    Unbroken stream past ∧
    (Presents tokenFile request past ∨ Authenticated tokenFile stream past)

/-! ### The socket and its connection -/

/-- Everything written so far was permitted, and the socket holds the stream of the newest
connection exactly while that is unbroken. -/
structure Tracks (tokenFile : Path) (history : List Carried) (s : Socket) : Prop where
  permitted : Throughout (Permitted tokenFile) history
  held_iff : ∀ stream, s.stream = some stream ↔
    ∃ past, newest history = some (stream, past) ∧ Unbroken stream past

section Tracks

variable {tokenFile : Path} {history : List Carried} {s s' : Socket} {c : Carried}

theorem permitted_of_writes_eq_nil (h : writes c.streams = []) : Permitted tokenFile history c :=
  fun hwrites => absurd h hwrites

/-- A step that opens no connection: the stream is kept exactly if the step is sound for it. -/
theorem Tracks.step (h : Tracks tokenFile history s) (hpermitted : Permitted tokenFile history c)
    (hopened : opened? c.streams = none)
    (hkept : ∀ stream, s'.stream = some stream ↔ s.stream = some stream ∧ c.Sound stream) :
    Tracks tokenFile (history ++ [c]) s' where
  permitted := throughout_concat.mpr ⟨h.permitted, hpermitted⟩
  held_iff := by
    intro stream
    rw [hkept, h.held_iff, newest_concat_of_unopened hopened]
    constructor
    · rintro ⟨⟨past, hnewest, hunbroken⟩, hsound⟩
      rw [hnewest]
      exact ⟨past ++ [c], rfl, unbroken_concat.mpr ⟨hunbroken, hsound⟩⟩
    · rintro ⟨past, hnewest, hunbroken⟩
      obtain ⟨⟨stream', past'⟩, hnewest', heq⟩ := Option.map_eq_some_iff.mp hnewest
      cases heq
      obtain ⟨hunbroken', hsound⟩ := unbroken_concat.mp hunbroken
      exact ⟨⟨past', hnewest', hunbroken'⟩, hsound⟩

/-- A step that opens a connection, whose stream the socket then holds. -/
theorem Tracks.open {stream : StreamId} (h : Tracks tokenFile history s)
    (hwrites : writes c.streams = []) (hopened : opened? c.streams = some stream)
    (hstream : s'.stream = some stream) : Tracks tokenFile (history ++ [c]) s' where
  permitted := throughout_concat.mpr ⟨h.permitted, permitted_of_writes_eq_nil hwrites⟩
  held_iff := by
    intro stream'
    rw [hstream, newest_concat_of_opened hopened]
    constructor
    · rintro ⟨⟩
      exact ⟨[], rfl, by simp [Unbroken]⟩
    · rintro ⟨past, heq, -⟩
      cases heq
      rfl

/-- A step that gives up whatever stream the socket holds. -/
theorem Tracks.drop (h : Tracks tokenFile history s) (hpermitted : Permitted tokenFile history c)
    (hopened : opened? c.streams = none) (hnone : s'.stream = none)
    (hcloses : ∀ stream, s.stream = some stream → stream ∈ closes c.streams) :
    Tracks tokenFile (history ++ [c]) s' := by
  refine h.step hpermitted hopened fun stream => ⟨fun hstream => ?_, ?_⟩
  · rw [hnone] at hstream
    cases hstream
  · rintro ⟨hstream, hsound⟩
    exact absurd (hcloses stream hstream) hsound.unclosed

/-- A step that has nothing to do with the streams. -/
theorem Tracks.quiet (h : Tracks tokenFile history s) (hstreams : c.streams = [])
    (hcall : ∀ request, c.exchange.op ≠ .channel (.call request)) :
    Tracks tokenFile (history ++ [c]) s := by
  refine h.step (permitted_of_writes_eq_nil (by rw [hstreams]; rfl)) (by rw [hstreams]; rfl) ?_
  intro stream
  exact ⟨fun hstream => ⟨hstream, Carried.sound_of_quiet hstreams hcall stream⟩, And.left⟩

end Tracks

end Overseer
