import Overseer.Text.Split

/-!
Blank characters, trimming and words.

Blank is what the Unicode property White_Space holds. Words are the maximal runs of other
characters (`words_eq_iff`), so none is ever empty or holds a blank (`mem_words`).
-/

namespace Overseer.Text

/-- The characters of the Unicode property White_Space. -/
def isBlank (c : Char) : Bool :=
  let n := c.toNat
  (0x09 ≤ n && n ≤ 0x0D) || n == 0x20 || n == 0x85 || n == 0xA0 || n == 0x1680
    || (0x2000 ≤ n && n ≤ 0x200A) || n == 0x2028 || n == 0x2029 || n == 0x202F || n == 0x205F
    || n == 0x3000

/-- The text without the blanks at its two ends. -/
def trim (text : String) : String :=
  let front := text.toList.dropWhile isBlank
  String.ofList (front.reverse.dropWhile isBlank).reverse

/-- The words of a text, in order. -/
def words (text : String) : List String :=
  ((pieces isBlank text.toList).filter (!·.isEmpty)).map String.ofList

theorem mem_words {text word : String} (h : word ∈ words text) :
    word.toList ≠ [] ∧ ∀ c ∈ word.toList, isBlank c = false := by
  simp only [words, List.mem_map, List.mem_filter] at h
  obtain ⟨piece, ⟨hmem, hne⟩, rfl⟩ := h
  refine ⟨?_, fun c hc => ?_⟩
  · simpa using hne
  · exact not_separator_of_mem_pieces hmem (by simpa using hc)

/-- Some characters are these words, with any blanks before, between and after them. -/
inductive Spaced : List Char → List (List Char) → Prop where
  | nil : Spaced [] []
  | blank {c : Char} {text : List Char} {words : List (List Char)} (hc : isBlank c = true)
      (rest : Spaced text words) : Spaced (c :: text) words
  | word {word text : List Char} {words : List (List Char)} (hne : word ≠ [])
      (hword : ∀ c ∈ word, isBlank c = false) (hend : ∀ c ∈ text.head?, isBlank c = true)
      (rest : Spaced text words) : Spaced (word ++ text) (word :: words)

theorem Spaced.pieces {text : List Char} {words : List (List Char)} (h : Spaced text words) :
    (Text.pieces isBlank text).filter (!·.isEmpty) = words := by
  induction h with
  | nil => rfl
  | blank hc rest ih => simpa [Text.pieces, hc] using ih
  | @word word text words hne hword hend rest ih =>
    have hwhole := pieces_eq_singleton hword
    cases text with
    | nil =>
      rw [List.append_nil, hwhole, ← ih]
      simp [Text.pieces, hne]
    | cons c text =>
      have hc : isBlank c = true := hend c rfl
      rw [pieces_append_separator hc, hwhole, ← ih]
      simp [Text.pieces, hc, hne]

theorem exists_spaced (text : List Char) : ∃ words, Spaced text words := by
  induction text with
  | nil => exact ⟨[], .nil⟩
  | cons c text ih =>
    obtain ⟨words, h⟩ := ih
    cases hc : isBlank c with
    | true => exact ⟨words, .blank hc h⟩
    | false =>
      have hletter : ∀ d ∈ [c], isBlank d = false := by simpa using hc
      -- The character goes to the word behind it, if there is one right behind it.
      cases h with
      | nil => exact ⟨[[c]], .word (List.cons_ne_nil c []) hletter nofun .nil⟩
      | @blank d text words hd rest =>
        have hend : ∀ e ∈ (d :: text).head?, isBlank e = true := by simpa using hd
        exact ⟨[c] :: words, .word (List.cons_ne_nil c []) hletter hend (.blank hd rest)⟩
      | @word word text words hne hword hend rest =>
        have hlonger : ∀ d ∈ c :: word, isBlank d = false := List.forall_mem_cons.mpr ⟨hc, hword⟩
        exact ⟨(c :: word) :: words, .word (List.cons_ne_nil c word) hlonger hend rest⟩

/-- The words of a text, told by the text. -/
def HasWords (text : String) (found : List String) : Prop :=
  Spaced text.toList (found.map String.toList)

theorem words_eq_iff {text : String} {found : List String} :
    words text = found ↔ HasWords text found := by
  unfold HasWords
  constructor
  · rintro rfl
    obtain ⟨spelled, hspelled⟩ := exists_spaced text.toList
    rw [words, hspelled.pieces, List.map_map]
    have hsame : String.toList ∘ String.ofList = id := by
      funext piece
      exact String.toList_ofList
    rwa [hsame, List.map_id]
  · intro h
    rw [words, h.pieces]
    simp

end Overseer.Text
