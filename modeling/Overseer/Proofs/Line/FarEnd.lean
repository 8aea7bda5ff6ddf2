import Overseer.Channel.Socket
import Overseer.Proofs.Wire.Frames

/-!
Streams with a far end in memory.

A far end delivers some bytes in time, and then nothing more or a fault; it takes what it is sent,
or none of it. Taking a frame from such a stream takes the frame that begins its bytes
(`FarEnd.run_receive`). So frames that were written come back, and every input is the frames that
are taken from it, up to a rest at which no frame begins (`frames_round_trip`).
-/

namespace Overseer

/-- The far end of a stream. -/
structure FarEnd where
  now : Nat := 0
  /-- What becomes of a write. -/
  accepts : Except StreamFault Unit := .ok ()
  /-- What arrives in time. -/
  incoming : ByteArray
  /-- What a read meets that goes beyond it. -/
  ending : StreamFault := .io .unexpectedEof
  /-- What was sent, write by write. -/
  sent : List ByteArray := []
  isOpen : Bool := true

namespace FarEnd

/-- Without its first bytes, as far as there are so many. -/
def skip (f : FarEnd) (count : Nat) : FarEnd :=
  { f with incoming := f.incoming.extract count f.incoming.size }

/-- After some bytes were sent to it. -/
def sending (f : FarEnd) (bytes : ByteArray) : FarEnd := { f with sent := f.sent ++ [bytes] }

/-- Carries out a stream operation. A read takes what is there, also if that is not enough. -/
def perform (f : FarEnd) : (op : StreamOp) → op.Answer × FarEnd
  | .connect _ => (.error .connectionRefused, f)
  | .clock => (f.now, f)
  | .write _ bytes _ =>
    match f.accepts with
    | .error fault => (.error fault, f)
    | .ok () => (.ok (), f.sending bytes)
  | .read _ count _ =>
    (if f.incoming.size < count then .error f.ending else .ok (f.incoming.extract 0 count),
      f.skip count)
  | .close _ => ((), { f with isOpen := false })

/-- Runs a program over streams against a far end. -/
def run {α : Type} : Program Streams α → FarEnd → α × FarEnd
  | .done a, f => (a, f)
  | .ask op next, f => run (next (f.perform op).1) (f.perform op).2

@[simp] theorem run_done {α : Type} (a : α) (f : FarEnd) : run (.done a) f = (a, f) := rfl

theorem run_bind {α β : Type} (p : Program Streams α) (next : α → Program Streams β) (f : FarEnd) :
    run (p >>= next) f = run (next (run p f).1) (run p f).2 := by
  induction p generalizing f with
  | done a => rfl
  | ask op rest ih => exact ih _ _

variable (f : FarEnd) (stream : StreamId) (deadline : Nat)

@[simp] theorem ending_skip (count : Nat) : (f.skip count).ending = f.ending := rfl

theorem run_write (bytes : ByteArray) :
    run (Socket.write stream bytes deadline) f =
      match f.accepts with
      | .error fault => (.error fault, f)
      | .ok () => (.ok (), f.sending bytes) :=
  rfl

theorem run_read (count : Nat) :
    run (Socket.read stream count deadline) f =
      (if f.incoming.size < count then .error f.ending else .ok (f.incoming.extract 0 count),
        f.skip count) :=
  rfl

theorem size_skip (count : Nat) : (f.skip count).incoming.size = f.incoming.size - count := by
  change (f.incoming.extract count f.incoming.size).size = _
  rw [ByteArray.size_extract, Nat.min_self]

theorem skip_skip {first : Nat} (h : first ≤ f.incoming.size) (second : Nat) :
    (f.skip first).skip second = f.skip (first + second) := by
  have hincoming : (f.skip first).incoming.extract second (f.skip first).incoming.size =
      f.incoming.extract (first + second) f.incoming.size := by
    rw [size_skip]
    change (f.incoming.extract first f.incoming.size).extract second _ = _
    rw [ByteArray.extract_extract]
    congr 1
    omega
  simp only [skip] at hincoming ⊢
  rw [hincoming]

theorem skip_of_size_le {count : Nat} (h : f.incoming.size ≤ count) :
    f.skip count = f.skip f.incoming.size := by
  have hnone : f.incoming.extract count f.incoming.size = .empty := by
    rw [ByteArray.extract_eq_empty_iff]
    omega
  simp only [skip, hnone, ByteArray.extract_same]

/-- The first four bytes that arrive go with a frame that is too large, and all of them with one
that is not complete. -/
theorem run_receive :
    run (Socket.receive stream deadline) f =
      match Frame.takeAt f.incoming 0 with
      | .ok (payload, next) => (.ok payload, f.skip next)
      | .error (.tooLarge length) => (.error (.frameTooLarge length), f.skip Frame.headerLength)
      | .error .incomplete => (.error f.ending.toChannelError, f.skip f.incoming.size) := by
  unfold Socket.receive Frame.takeAt
  rw [run_bind, run_read]
  simp only [Nat.zero_add]
  by_cases hheader : f.incoming.size < Frame.headerLength
  · rw [if_pos hheader, if_pos hheader]
    simp [f.skip_of_size_le (Nat.le_of_lt hheader)]
  · have hsize : Frame.headerLength ≤ f.incoming.size := Nat.le_of_not_lt hheader
    rw [if_neg hheader, if_neg hheader]
    dsimp only
    generalize Frame.lengthOf (f.incoming.extract 0 Frame.headerLength) = length
    by_cases hover : Frame.maxLength < length
    · rw [if_pos hover, if_pos hover]
      rfl
    · rw [if_neg hover, if_neg hover, run_bind, run_read, size_skip, f.skip_skip hsize]
      by_cases hshort : f.incoming.size < Frame.headerLength + length
      · have hfew : f.incoming.size - Frame.headerLength < length := by omega
        rw [if_pos hfew, if_pos hshort]
        rw [f.skip_of_size_le (Nat.le_of_lt hshort)]
        rfl
      · have hmany : ¬f.incoming.size - Frame.headerLength < length := by omega
        have hpayload : (f.skip Frame.headerLength).incoming.extract 0 length =
            f.incoming.extract Frame.headerLength (Frame.headerLength + length) := by
          change (f.incoming.extract _ f.incoming.size).extract 0 length = _
          rw [ByteArray.extract_extract]
          congr 1
          omega
        rw [if_neg hmany, if_neg hshort, hpayload]
        rfl

/-! ### Rows of frames -/

/-- An input that ends after some bytes. -/
def input (bytes : ByteArray) : FarEnd := { incoming := bytes }

/-- A frame of a bounded payload is taken from what arrives, and nothing else is. -/
theorem run_receive_frame {payload after : ByteArray} (h : payload.size ≤ Frame.maxLength)
    (hincoming : f.incoming = Frame.header payload.size ++ payload ++ after) :
    run (Socket.receive stream deadline) f = (.ok payload, { f with incoming := after }) := by
  have hrest : f.skip (Frame.headerLength + payload.size) = { f with incoming := after } := by
    have hafter :
        f.incoming.extract (Frame.headerLength + payload.size) f.incoming.size = after := by
      rw [hincoming]
      refine ByteArray.extract_append_eq_right ?_ ByteArray.size_append
      rw [ByteArray.size_append, Frame.size_header]
    rw [skip, hafter]
  rw [run_receive, hincoming, Frame.takeAt_frame after h]
  simp only [hrest]

/-- Frames are taken one after the other, each of them whole. -/
inductive Takes (stream : StreamId) (deadline : Nat) : FarEnd → List ByteArray → FarEnd → Prop where
  | none (f : FarEnd) : Takes stream deadline f [] f
  | frame {f f' f'' : FarEnd} {payload : ByteArray} {payloads : List ByteArray}
      (taken : run (Socket.receive stream deadline) f = (.ok payload, f'))
      (more : Takes stream deadline f' payloads f'') :
      Takes stream deadline f (payload :: payloads) f''

theorem takes_frames {payloads : List ByteArray}
    (h : ∀ payload ∈ payloads, payload.size ≤ Frame.maxLength) (rest : ByteArray) :
    Takes stream deadline (input (Frame.frames payloads ++ rest)) payloads (input rest) := by
  induction payloads with
  | nil =>
    rw [Frame.frames, ByteArray.empty_append]
    exact .none _
  | cons payload payloads ih =>
    obtain ⟨hpayload, hrest⟩ := List.forall_mem_cons.mp h
    refine .frame (run_receive_frame _ stream deadline hpayload ?_) (ih hrest)
    exact ByteArray.append_assoc

end FarEnd

/-- Where no frame begins, taking one fails: with a length over the limit just its four bytes are
taken, and else all that is left. -/
theorem FarEnd.run_receive_fault (stream : StreamId) (deadline : Nat) {rest : ByteArray}
    {fault : Frame.Fault} (h : Frame.takeAt rest 0 = .error fault) :
    ∃ left, run (Socket.receive stream deadline) (.input rest) =
        (.error fault.toChannelError, .input left) ∧
      ((∃ header length, fault = .tooLarge length ∧ header.size = Frame.headerLength ∧
          rest = header ++ left) ∨
        (fault = .incomplete ∧ left = .empty)) := by
  have hreceive := run_receive (.input rest) stream deadline
  rw [show (input rest).incoming = rest from rfl, h] at hreceive
  cases fault with
  | tooLarge length =>
    obtain ⟨hsize, -⟩ := Frame.announces_iff.mp ((Frame.tooLarge_iff h).mp rfl).1
    refine ⟨_, hreceive, .inl ⟨rest.extract 0 Frame.headerLength, length, rfl, ?_, ?_⟩⟩
    · rw [ByteArray.size_extract]
      omega
    · change _ = _ ++ rest.extract Frame.headerLength rest.size
      rw [← ByteArray.extract_eq_extract_append_extract _ (Nat.zero_le _) hsize,
        ByteArray.extract_zero_size]
  | incomplete => exact ⟨_, hreceive, .inr ⟨rfl, ByteArray.extract_same⟩⟩

/-- Frames that are written come back one by one before whatever follows them, and a payload that is
too large is not written. Taking frames from any input comes to an end at a rest at which no frame
begins: its first four bytes give a length over the limit and nothing but them is taken, or the
input ends. What was taken before is what writing the payloads again gives. -/
theorem frames_round_trip (stream : StreamId) (deadline : Nat) :
    (∀ payloads tail, (∀ payload ∈ payloads, payload.size ≤ Frame.maxLength) →
      ∃ written, Frame.encodeAll .empty payloads = (written, none) ∧
        FarEnd.Takes stream deadline (.input (written ++ tail)) payloads (.input tail)) ∧
    (∀ written payload rest, Frame.maxLength < payload.size →
      Frame.encodeAll written (payload :: rest) =
        (written, some (.tooLarge (min payload.size Frame.maxHeader)))) ∧
    ∀ bytes, ∃ payloads fault written rest left, Frame.takeAll bytes = (payloads, fault) ∧
      FarEnd.Takes stream deadline (.input bytes) payloads (.input rest) ∧
      FarEnd.run (Socket.receive stream deadline) (.input rest) =
        (.error fault.toChannelError, .input left) ∧
      Frame.encodeAll .empty payloads = (written, none) ∧ written ++ rest = bytes ∧
      (∀ length, fault.toChannelError = .frameTooLarge length ↔
        Frame.Announces rest length ∧ Frame.maxLength < length) ∧
      ((∃ header length, fault.toChannelError = .frameTooLarge length ∧
          header.size = Frame.headerLength ∧ rest = header ++ left) ∨
        (fault.toChannelError = .io .unexpectedEof ∧ left = .empty)) := by
  constructor
  · intro payloads tail hbounded
    refine ⟨Frame.frames payloads, ?_, FarEnd.takes_frames stream deadline hbounded tail⟩
    rw [Frame.encodeAll_of_bounded hbounded, ByteArray.empty_append]
  constructor
  · intro written payload rest hover
    exact Frame.encodeAll_of_over hover written rest
  · intro bytes
    obtain ⟨⟨payloads, fault⟩, htaken⟩ : ∃ taken, Frame.takeAll bytes = taken := ⟨_, rfl⟩
    obtain ⟨rest, hbytes, hbounded, hfault⟩ := Frame.takeAll_spec htaken
    obtain ⟨left, hreceive, hleft⟩ := FarEnd.run_receive_fault stream deadline hfault
    have htakes := FarEnd.takes_frames stream deadline hbounded rest
    rw [← hbytes] at htakes
    have hwritten := Frame.encodeAll_of_bounded hbounded .empty
    refine ⟨payloads, fault, _, rest, left, htaken, htakes, hreceive, hwritten, ?_, ?_, ?_⟩
    · rw [ByteArray.empty_append, ← hbytes]
    · intro length
      rw [← Frame.tooLarge_iff hfault]
      cases fault <;> simp [Frame.Fault.toChannelError]
    · rcases hleft with ⟨header, length, rfl, hheader, hrest⟩ | ⟨rfl, hempty⟩
      · exact .inl ⟨header, length, rfl, hheader, hrest⟩
      · exact .inr ⟨rfl, hempty⟩

/-- Two payloads, one of them empty, before a tail, and a payload that is one byte too large. -/
theorem frames_round_trip_ping :
    let payloads := ["ping".toUTF8, ByteArray.empty]
    let large : ByteArray := ⟨Array.replicate (Frame.maxLength + 1) 0⟩
    (∃ written, Frame.encodeAll .empty payloads = (written, none) ∧
      FarEnd.Takes 0 0 (.input (written ++ "tail".toUTF8)) payloads (.input "tail".toUTF8)) ∧
    Frame.encodeAll .empty [large] =
      (.empty, some (.tooLarge (min large.size Frame.maxHeader))) := by
  intro payloads large
  obtain ⟨written, refused, -⟩ := frames_round_trip 0 0
  constructor
  · apply written
    simp only [payloads, List.forall_mem_cons]
    exact ⟨by decide, by decide, nofun⟩
  · apply refused
    change Frame.maxLength < (Array.replicate (Frame.maxLength + 1) (0 : UInt8)).size
    rw [Array.size_replicate]
    exact Nat.lt_succ_self _

end Overseer
