import Overseer.Wire.Frame

/-!
Frames in a row of bytes.

A frame is its header and its payload, whatever comes before and after it. Where none begins, either
four bytes give a length over the limit (`Frame.tooLarge_iff`) or the input ends too early
(`Frame.Taken`). So the frames that were written are those that are taken (`Frame.takeAt_frame`),
and an input is the frames that are taken from it and a rest (`Frame.takeAll_spec`).
-/

namespace Overseer.Frame

/-! ### Headers -/

/-- Four bytes give a length, highest first, and stand at the start of an input. -/
def Announces (input : ByteArray) (length : Nat) : Prop :=
  ∃ b₀ b₁ b₂ b₃ : UInt8, ∃ body, input = ⟨#[b₀, b₁, b₂, b₃]⟩ ++ body ∧
    length = 0x1000000 * b₀.toNat + 0x10000 * b₁.toNat + 0x100 * b₂.toNat + b₃.toNat

@[simp] theorem size_header (length : Nat) : (header length).size = headerLength := rfl

theorem lengthOf_four (b₀ b₁ b₂ b₃ : UInt8) :
    lengthOf ⟨#[b₀, b₁, b₂, b₃]⟩ =
      0x1000000 * b₀.toNat + 0x10000 * b₁.toNat + 0x100 * b₂.toNat + b₃.toNat := by
  have hfold : lengthOf ⟨#[b₀, b₁, b₂, b₃]⟩ =
      256 * (256 * (256 * (256 * 0 + b₀.toNat) + b₁.toNat) + b₂.toNat) + b₃.toNat := rfl
  omega

theorem exists_four {bytes : ByteArray} (h : bytes.size = headerLength) :
    ∃ b₀ b₁ b₂ b₃, bytes = ⟨#[b₀, b₁, b₂, b₃]⟩ := by
  obtain ⟨⟨list⟩⟩ := bytes
  match list, h with
  | [b₀, b₁, b₂, b₃], _ => exact ⟨b₀, b₁, b₂, b₃, rfl⟩

theorem lengthOf_header {length : Nat} (h : length ≤ maxHeader) :
    lengthOf (header length) = length := by
  have hmax : maxHeader = 2 ^ 32 - 1 := rfl
  rw [header, lengthOf_four]
  simp only [UInt8.toNat_ofNat', Nat.shiftRight_eq_div_pow]
  omega

theorem header_lengthOf {bytes : ByteArray} (h : bytes.size = headerLength) :
    header (lengthOf bytes) = bytes := by
  obtain ⟨b₀, b₁, b₂, b₃, rfl⟩ := exists_four h
  have hbyte {n : Nat} {b : UInt8} (hn : n % 2 ^ 8 = b.toNat) : UInt8.ofNat n = b := by
    rw [← UInt8.toNat_inj, UInt8.toNat_ofNat', hn]
  have h₀ := b₀.toNat_lt
  have h₁ := b₁.toNat_lt
  have h₂ := b₂.toNat_lt
  have h₃ := b₃.toNat_lt
  have hfirst : UInt8.ofNat (lengthOf ⟨#[b₀, b₁, b₂, b₃]⟩ >>> 24) = b₀ := by
    rw [lengthOf_four, Nat.shiftRight_eq_div_pow]
    exact hbyte (by omega)
  have hsecond : UInt8.ofNat (lengthOf ⟨#[b₀, b₁, b₂, b₃]⟩ >>> 16) = b₁ := by
    rw [lengthOf_four, Nat.shiftRight_eq_div_pow]
    exact hbyte (by omega)
  have hthird : UInt8.ofNat (lengthOf ⟨#[b₀, b₁, b₂, b₃]⟩ >>> 8) = b₂ := by
    rw [lengthOf_four, Nat.shiftRight_eq_div_pow]
    exact hbyte (by omega)
  have hlast : UInt8.ofNat (lengthOf ⟨#[b₀, b₁, b₂, b₃]⟩) = b₃ := by
    rw [lengthOf_four]
    exact hbyte (by omega)
  rw [header, hfirst, hsecond, hthird, hlast]

theorem announces_iff {input : ByteArray} {length : Nat} :
    Announces input length ↔
      headerLength ≤ input.size ∧ lengthOf (input.extract 0 headerLength) = length := by
  constructor
  · rintro ⟨b₀, b₁, b₂, b₃, body, rfl, rfl⟩
    have hfour : headerLength = ByteArray.size ⟨#[b₀, b₁, b₂, b₃]⟩ := rfl
    constructor
    · rw [ByteArray.size_append]
      exact Nat.le_add_right _ _
    · rw [ByteArray.extract_append_eq_left hfour, lengthOf_four]
  · rintro ⟨hsize, rfl⟩
    have hheader : (input.extract 0 headerLength).size = headerLength := by
      rw [ByteArray.size_extract]
      omega
    obtain ⟨b₀, b₁, b₂, b₃, hbytes⟩ := exists_four hheader
    refine ⟨b₀, b₁, b₂, b₃, input.extract headerLength input.size, ?_, ?_⟩
    · rw [← hbytes,
        ← ByteArray.extract_eq_extract_append_extract headerLength (Nat.zero_le _) hsize,
        ByteArray.extract_zero_size]
    · rw [hbytes, lengthOf_four]

theorem announces_frame {payload after : ByteArray} (h : payload.size ≤ maxHeader) :
    Announces (header payload.size ++ payload ++ after) payload.size := by
  rw [announces_iff, ByteArray.append_assoc, ByteArray.extract_append_eq_left (size_header _).symm]
  refine ⟨?_, lengthOf_header h⟩
  rw [ByteArray.size_append]
  exact Nat.le_add_right _ _

theorem Announces.unique {input : ByteArray} {length length' : Nat} (h : Announces input length)
    (h' : Announces input length') : length = length' :=
  (announces_iff.mp h).2.symm.trans (announces_iff.mp h').2

/-! ### One frame -/

theorem maxLength_le_maxHeader : maxLength ≤ maxHeader := by decide

/-- What can be taken from an input. -/
inductive Taken (input : ByteArray) : Except Fault (ByteArray × Nat) → Prop where
  | frame {payload after : ByteArray} (bounded : payload.size ≤ maxLength)
      (begins : input = header payload.size ++ payload ++ after) :
      Taken input (.ok (payload, headerLength + payload.size))
  | tooLarge {length : Nat} (announced : Announces input length) (exceeds : maxLength < length) :
      Taken input (.error (.tooLarge length))
  | incomplete (ends : ∀ length, Announces input length →
      length ≤ maxLength ∧ input.size < headerLength + length) : Taken input (.error .incomplete)

theorem takeAt_taken (input : ByteArray) : Taken input (takeAt input 0) := by
  unfold takeAt
  simp only [Nat.zero_add]
  by_cases hheader : input.size < headerLength
  · rw [if_pos hheader]
    refine .incomplete fun length announced => ?_
    have := (announces_iff.mp announced).1
    omega
  · have hsize : headerLength ≤ input.size := Nat.le_of_not_lt hheader
    have hannounced : Announces input (lengthOf (input.extract 0 headerLength)) :=
      announces_iff.mpr ⟨hsize, rfl⟩
    rw [if_neg hheader]
    generalize hlength : lengthOf (input.extract 0 headerLength) = length at hannounced
    by_cases hover : maxLength < length
    · rw [if_pos hover]
      exact .tooLarge hannounced hover
    · rw [if_neg hover]
      have hbounded : length ≤ maxLength := Nat.le_of_not_lt hover
      by_cases hshort : input.size < headerLength + length
      · rw [if_pos hshort]
        refine .incomplete fun length' hlength' => ?_
        rw [hlength'.unique hannounced]
        exact ⟨hbounded, hshort⟩
      · rw [if_neg hshort]
        have hpayload : (input.extract headerLength (headerLength + length)).size = length := by
          rw [ByteArray.size_extract]
          omega
        have hfirst : header length = input.extract 0 headerLength := by
          rw [← hlength]
          refine header_lengthOf ?_
          rw [ByteArray.size_extract]
          omega
        have htaken := @Taken.frame input (input.extract headerLength (headerLength + length))
          (input.extract (headerLength + length) input.size)
        rw [hpayload, hfirst] at htaken
        refine htaken hbounded ?_
        rw [← ByteArray.extract_eq_extract_append_extract headerLength (Nat.zero_le _)
            (Nat.le_add_right _ _),
          ← ByteArray.extract_eq_extract_append_extract _ (Nat.zero_le _) (Nat.le_of_not_lt hshort),
          ByteArray.extract_zero_size]

theorem takeAt_frame {payload : ByteArray} (after : ByteArray) (h : payload.size ≤ maxLength) :
    takeAt (header payload.size ++ payload ++ after) 0 =
      .ok (payload, headerLength + payload.size) := by
  have hannounced : Announces (header payload.size ++ payload ++ after) payload.size :=
    announces_frame (Nat.le_trans h maxLength_le_maxHeader)
  generalize hinput : header payload.size ++ payload ++ after = input at hannounced
  have htaken := takeAt_taken input
  generalize takeAt input 0 = taken at htaken
  cases htaken with
  | tooLarge announced exceeds =>
    rw [announced.unique hannounced] at exceeds
    omega
  | incomplete ends =>
    obtain ⟨-, hshort⟩ := ends _ hannounced
    rw [← hinput] at hshort
    simp only [ByteArray.size_append, size_header] at hshort
    omega
  | @frame payload' after' bounded begins =>
    have hsize : payload'.size = payload.size := by
      refine Announces.unique ?_ hannounced
      rw [begins]
      exact announces_frame (Nat.le_trans bounded maxLength_le_maxHeader)
    rw [← hinput, hsize, ByteArray.append_assoc, ByteArray.append_assoc,
      ByteArray.append_eq_append_iff_of_size_eq_left rfl] at begins
    rw [ByteArray.append_inj_left begins.2 hsize.symm]

/-- Taking a frame looks at nothing before it. -/
theorem takeAt_append (before input : ByteArray) :
    takeAt (before ++ input) before.size =
      (takeAt input 0).map fun (payload, next) => (payload, before.size + next) := by
  unfold takeAt
  simp only [Nat.zero_add, ByteArray.size_append, Nat.add_lt_add_iff_left, Nat.add_assoc]
  by_cases hheader : input.size < headerLength
  · rw [if_pos hheader, if_pos hheader]
    rfl
  · rw [if_neg hheader, if_neg hheader]
    have hfour : (before ++ input).extract before.size (before.size + headerLength) =
        input.extract 0 headerLength :=
      ByteArray.extract_append_size_add (i := 0)
    rw [hfour]
    generalize lengthOf (input.extract 0 headerLength) = length
    by_cases hover : maxLength < length
    · rw [if_pos hover, if_pos hover]
      rfl
    · rw [if_neg hover, if_neg hover]
      by_cases hshort : input.size < headerLength + length
      · rw [if_pos hshort, if_pos hshort]
        rfl
      · rw [if_neg hshort, if_neg hshort, ByteArray.extract_append_size_add]
        rfl

/-! ### Rows of frames -/

/-- The frames of some payloads, one after the other. -/
def frames : List ByteArray → ByteArray
  | [] => .empty
  | payload :: rest => header payload.size ++ payload ++ frames rest

theorem encodeAll_of_bounded {payloads : List ByteArray}
    (h : ∀ payload ∈ payloads, payload.size ≤ maxLength) (written : ByteArray) :
    encodeAll written payloads = (written ++ frames payloads, none) := by
  induction payloads generalizing written with
  | nil => rw [encodeAll, frames, ByteArray.append_empty]
  | cons payload rest ih =>
    obtain ⟨hpayload, hrest⟩ := List.forall_mem_cons.mp h
    have hencode : encode payload = .ok (header payload.size ++ payload) :=
      if_neg (Nat.not_lt.mpr hpayload)
    rw [encodeAll, hencode, frames, ← ByteArray.append_assoc, ← ih hrest]

/-- A payload that is too large is told, and none of it is written. -/
theorem encodeAll_of_over {payload : ByteArray} (h : maxLength < payload.size)
    (written : ByteArray) (rest : List ByteArray) :
    encodeAll written (payload :: rest) =
      (written, some (.tooLarge (min payload.size maxHeader))) := by
  have hencode : encode payload = .error (.tooLarge (min payload.size maxHeader)) := if_pos h
  rw [encodeAll, hencode]

theorem takeFrom_append (before input : ByteArray) (room : Nat) :
    takeFrom (before ++ input) room before.size = takeFrom input room 0 := by
  induction room generalizing before input with
  | zero => rfl
  | succ room ih =>
    rw [takeFrom, takeFrom, takeAt_append]
    have htaken := takeAt_taken input
    generalize takeAt input 0 = taken at htaken
    cases htaken with
    | tooLarge announced exceeds => rfl
    | incomplete ends => rfl
    | @frame payload after bounded begins =>
      let frame := header payload.size ++ payload
      have hsize : frame.size = headerLength + payload.size := ByteArray.size_append
      have hwhole : before ++ input = before ++ frame ++ after := by
        rw [begins, ← ByteArray.append_assoc]
      have hnext : before.size + (headerLength + payload.size) = (before ++ frame).size := by
        rw [ByteArray.size_append, hsize]
      have hrest : takeFrom (before ++ input) room (before.size + (headerLength + payload.size)) =
          takeFrom input room (headerLength + payload.size) := by
        rw [hwhole, hnext, ih, begins, ← hsize, ih]
      simp only [Except.map, hrest]

/-- After the frames that are taken there is no further one. -/
theorem takeFrom_spec {input : ByteArray} {room : Nat} (h : input.size < room) :
    ∃ rest, input = frames (takeFrom input room 0).1 ++ rest ∧
      (∀ payload ∈ (takeFrom input room 0).1, payload.size ≤ maxLength) ∧
      takeAt rest 0 = .error (takeFrom input room 0).2 := by
  induction room generalizing input with
  | zero => exact absurd h (Nat.not_lt_zero _)
  | succ room ih =>
    rw [takeFrom]
    have htaken := takeAt_taken input
    generalize hresult : takeAt input 0 = taken at htaken
    cases htaken with
    | tooLarge announced exceeds => exact ⟨input, ByteArray.empty_append.symm, nofun, hresult⟩
    | incomplete ends => exact ⟨input, ByteArray.empty_append.symm, nofun, hresult⟩
    | @frame payload after bounded begins =>
      have hsize : (header payload.size ++ payload).size = headerLength + payload.size :=
        ByteArray.size_append
      have hrest : takeFrom input room (headerLength + payload.size) = takeFrom after room 0 := by
        rw [begins, ← hsize, takeFrom_append]
      have hshorter : after.size < room := by
        rw [begins, ByteArray.size_append, hsize] at h
        have hfour : headerLength = 4 := rfl
        omega
      obtain ⟨rest, hinput, hbounded, hfault⟩ := ih hshorter
      simp only [hrest]
      refine ⟨rest, ?_, List.forall_mem_cons.mpr ⟨bounded, hbounded⟩, hfault⟩
      rw [frames, ByteArray.append_assoc, ← hinput, begins]

/-- An input is the frames that are taken from it and a rest at which no frame begins. -/
theorem takeAll_spec {input : ByteArray} {payloads : List ByteArray} {fault : Fault}
    (h : takeAll input = (payloads, fault)) :
    ∃ rest, input = frames payloads ++ rest ∧
      (∀ payload ∈ payloads, payload.size ≤ maxLength) ∧ takeAt rest 0 = .error fault := by
  have hspec := takeFrom_spec (Nat.lt_succ_self input.size)
  have hfrom : takeFrom input (input.size + 1) 0 = (payloads, fault) := h
  rwa [hfrom] at hspec

/-- Where no frame begins, the fault is a length over the limit exactly if one is given there. -/
theorem tooLarge_iff {input : ByteArray} {fault : Fault} {length : Nat}
    (h : takeAt input 0 = .error fault) :
    fault = .tooLarge length ↔ Announces input length ∧ maxLength < length := by
  have htaken := takeAt_taken input
  rw [h] at htaken
  cases htaken with
  | tooLarge announced exceeds =>
    constructor
    · intro heq
      cases heq
      exact ⟨announced, exceeds⟩
    · rintro ⟨announced', -⟩
      rw [announced.unique announced']
  | incomplete ends =>
    refine iff_of_false nofun ?_
    rintro ⟨announced, exceeds⟩
    exact absurd (ends length announced).1 (Nat.not_le.mpr exceeds)

end Overseer.Frame
