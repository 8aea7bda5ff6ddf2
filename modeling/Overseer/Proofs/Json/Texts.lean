import Overseer.Json.Token
import Overseer.Json.Writer

/-!
Reading strings.

Between its quotes a string is made of characters and escapes (`PiecesText`), and it is read as
these pieces whatever follows it (`PiecesText.read`). What is written for a string is such a text
(`piecesText_written`), and its pieces make up the string again (`joinPieces_pieces`), whatever
characters are in it.
-/

namespace Overseer.Json

open Overseer.Text (Symbol)

/-! ### The grammar of strings -/

/-- A character that stands for itself, or an escape. -/
inductive PieceText : Piece → List Char → Prop where
  | plain {c : Char} (hquote : c ≠ '"') (hescape : c ≠ '\\') (h : 0x20 ≤ c.toNat) :
      PieceText (.char c) [c]
  | letter {e c : Char} (h : simpleEscape? e = some c) : PieceText (.char c) ['\\', e]
  | digits {a b c d : Char} {n : Nat}
      (h : fourDigits? (.char a) (.char b) (.char c) (.char d) = some n) :
      PieceText (.unit n) ['\\', 'u', a, b, c, d]

/-- What stands between the quotes of a string. -/
inductive PiecesText : List Piece → List Char → Prop where
  | nil : PiecesText [] []
  | cons {piece : Piece} {pieces : List Piece} {part text : List Char} (h : PieceText piece part)
      (hrest : PiecesText pieces text) : PiecesText (piece :: pieces) (part ++ text)

theorem readPieces_plain {c : Char} (hquote : c ≠ '"') (hescape : c ≠ '\\') (h : 0x20 ≤ c.toNat)
    (rest : List Symbol) :
    readPieces (.char c :: rest) =
      (readPieces rest).map fun (ps, rest) => (.char c :: ps, rest) := by
  have hplain : ¬ (c.toNat < 0x20 ∨ c = '\\') := by
    rintro (hlow | heq)
    · omega
    · exact hescape heq
  conv => lhs; unfold readPieces
  split
  · rename_i heq
    cases heq
  · rename_i heq
    cases heq
  · rename_i heq
    cases heq
    exact absurd rfl hquote
  · rename_i heq
    cases heq
    exact absurd rfl hescape
  · rename_i heq
    cases heq
    exact absurd rfl hescape
  · rename_i heq
    cases heq
    rw [if_neg hplain]

theorem readPieces_letter {e c : Char} (h : simpleEscape? e = some c) (rest : List Symbol) :
    readPieces (.char '\\' :: .char e :: rest) =
      (readPieces rest).map fun (ps, rest) => (.char c :: ps, rest) := by
  unfold simpleEscape? at h
  split at h
  case h_9 => cases h
  all_goals
    cases h
    rfl

/-- A piece is read whatever follows it. -/
theorem PieceText.read {piece : Piece} {part : List Char} (h : PieceText piece part)
    (rest : List Symbol) :
    readPieces (part.map .char ++ rest) =
      (readPieces rest).map fun (ps, rest) => (piece :: ps, rest) := by
  cases h with
  | plain hquote hescape h => exact readPieces_plain hquote hescape h rest
  | letter h => exact readPieces_letter h rest
  | digits h => simp [readPieces, h]

theorem PiecesText.read {pieces : List Piece} {text : List Char} (h : PiecesText pieces text)
    (rest : List Symbol) :
    readPieces (text.map .char ++ .char '"' :: rest) = some (pieces, rest) := by
  induction h with
  | nil => rfl
  | cons h _ ih =>
    rw [List.map_append, List.append_assoc, h.read, ih]
    rfl

/-! ### Written strings -/

/-- The piece that is read for a written character: an escaped unit for a control character without
an escape of its own, else the character. -/
def pieceOf (c : Char) : Piece :=
  if c.toNat < 0x20 ∧ c ∉ ['\x08', '\x0c', '\n', '\r', '\t'] then .unit c.toNat else .char c

theorem fourDigits?_padded {n : Nat} (h : n < 0x10000) :
    ∃ a b c d, Text.Hex.padded 4 n = [a, b, c, d] ∧
      fourDigits? (.char a) (.char b) (.char c) (.char d) = some n := by
  refine ⟨_, _, _, _, rfl, ?_⟩
  have hlast := Text.Hex.value?_digit (Nat.mod_lt n (by decide : 0 < 16))
  have hthird := Text.Hex.value?_digit (Nat.mod_lt (n / 16) (by decide : 0 < 16))
  have hsecond := Text.Hex.value?_digit (Nat.mod_lt (n / 16 / 16) (by decide : 0 < 16))
  have hfirst := Text.Hex.value?_digit (Nat.mod_lt (n / 16 / 16 / 16) (by decide : 0 < 16))
  simp only [fourDigits?, hexDigit?, hlast, hthird, hsecond, hfirst, Option.bind_eq_bind,
    Option.bind_some, Option.pure_def, Option.some.injEq]
  omega

theorem pieceText_padded {n : Nat} (h : n < 0x10000) :
    PieceText (.unit n) ('\\' :: 'u' :: Text.Hex.padded 4 n) := by
  obtain ⟨a, b, c, d, hpadded, hread⟩ := fourDigits?_padded h
  rw [hpadded]
  exact .digits hread

/-- A written character is one piece. -/
theorem pieceText_charText (c : Char) : PieceText (pieceOf c) (charText c) := by
  unfold charText
  split
  · exact .letter rfl
  · exact .letter rfl
  · exact .letter rfl
  · exact .letter rfl
  · exact .letter rfl
  · exact .letter rfl
  · exact .letter rfl
  · rename_i hquote hescape hb hf hn hr ht
    by_cases hlow : c.toNat < 0x20
    · have hletters : c ∉ ['\x08', '\x0c', '\n', '\r', '\t'] := by
        simp only [List.mem_cons, List.not_mem_nil, or_false, not_or]
        exact ⟨hb, hf, hn, hr, ht⟩
      have hpiece : pieceOf c = .unit c.toNat := if_pos ⟨hlow, hletters⟩
      rw [if_pos hlow, hpiece]
      exact pieceText_padded (by omega)
    · have hpiece : pieceOf c = .char c := if_neg fun h => hlow h.1
      rw [if_neg hlow, hpiece]
      exact .plain hquote hescape (Nat.not_lt.mp hlow)

theorem piecesText_written (text : List Char) :
    PiecesText (text.map pieceOf) (text.flatMap charText) := by
  induction text with
  | nil => exact .nil
  | cons c text ih => exact .cons (pieceText_charText c) ih

theorem joinPieces_unit {n : Nat} (h : n < 0x20) (pieces : List Piece) :
    joinPieces (.unit n :: pieces) = (joinPieces pieces).map (Char.ofNat n :: ·) := by
  have hhigh : isHighSurrogate n = false := by simp [isHighSurrogate]; omega
  have hlow : isLowSurrogate n = false := by simp [isLowSurrogate]; omega
  cases pieces with
  | nil => simp [joinPieces, hhigh, hlow]
  | cons piece pieces => cases piece <;> simp [joinPieces, hhigh, hlow]

theorem joinPieces_pieceOf (c : Char) (pieces : List Piece) :
    joinPieces (pieceOf c :: pieces) = (joinPieces pieces).map (c :: ·) := by
  unfold pieceOf
  split
  · rename_i h
    rw [joinPieces_unit h.1, Char.ofNat_toNat]
  · rfl

/-- The pieces of a written string make up the string. -/
theorem joinPieces_pieces (text : List Char) : joinPieces (text.map pieceOf) = some text := by
  induction text with
  | nil => rfl
  | cons c text ih => rw [List.map_cons, joinPieces_pieceOf, ih]; rfl

end Overseer.Json
