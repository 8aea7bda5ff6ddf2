/-!
Cutting text at separators.

`pieces` cuts at every separator and keeps empty pieces, so there is always one piece more than
there are separators; `intercalate_pieces` puts the text together again, and what is put together is
cut into the same pieces again (`pieces_intercalate`). Lines, words and the segments of a path are
all cut this way.
-/

namespace Overseer.Text

/-- The pieces between separators, empty ones included. -/
def pieces (isSeparator : Char → Bool) : List Char → List (List Char)
  | [] => [[]]
  | c :: rest =>
    if isSeparator c then [] :: pieces isSeparator rest
    else
      match pieces isSeparator rest with
      | [] => [[c]]
      | piece :: more => (c :: piece) :: more

theorem pieces_ne_nil (isSeparator : Char → Bool) (text : List Char) :
    pieces isSeparator text ≠ [] := by
  cases text with
  | nil => simp [pieces]
  | cons c rest =>
    simp only [pieces]
    split
    · simp
    · split <;> simp

/-- No piece holds a separator. -/
theorem not_separator_of_mem_pieces {isSeparator : Char → Bool} {text piece : List Char} {c : Char}
    (hp : piece ∈ pieces isSeparator text) (hc : c ∈ piece) : isSeparator c = false := by
  induction text generalizing piece with
  | nil => simp_all [pieces]
  | cons d rest ih =>
    simp only [pieces] at hp
    split at hp
    · rcases List.mem_cons.1 hp with rfl | hp
      · cases hc
      · exact ih hp hc
    · rename_i hd
      have hd : isSeparator d = false := by simpa using hd
      split at hp
      · rcases List.mem_singleton.1 hp with rfl
        rcases List.mem_singleton.1 hc with rfl
        exact hd
      · rename_i first more hrest
        rcases List.mem_cons.1 hp with rfl | hp
        · rcases List.mem_cons.1 hc with rfl | hc
          · exact hd
          · exact ih (by rw [hrest]; exact List.mem_cons_self) hc
        · exact ih (by rw [hrest]; exact List.mem_cons_of_mem _ hp) hc

/-- Joining the pieces with the character they were cut at gives the text back. -/
theorem intercalate_pieces (separator : Char) (text : List Char) :
    [separator].intercalate (pieces (· == separator) text) = text := by
  induction text with
  | nil => rfl
  | cons c rest ih =>
    simp only [pieces]
    have hne := pieces_ne_nil (· == separator) rest
    split
    · rename_i h
      have h : c = separator := by simpa using h
      subst h
      cases hrest : pieces (· == c) rest with
      | nil => exact absurd hrest hne
      | cons piece more =>
        rw [hrest] at ih
        simp [List.intercalate, List.intersperse] at ih ⊢
        exact ih
    · cases hrest : pieces (· == separator) rest with
      | nil => exact absurd hrest hne
      | cons piece more =>
        rw [hrest] at ih
        cases more <;> simp_all [List.intercalate, List.intersperse]

/-- The same of texts. -/
theorem intercalate_map_pieces {separator : Char} {joint : String}
    (hjoint : joint.toList = [separator]) (text : String) :
    joint.intercalate ((pieces (· == separator) text.toList).map String.ofList) = text := by
  apply String.toList_inj.mp
  have hsame : String.toList ∘ String.ofList = id := by
    funext piece
    exact String.toList_ofList
  rw [String.toList_intercalate, hjoint, List.map_map, hsame, List.map_id]
  exact intercalate_pieces separator text.toList

theorem pieces_append_separator {isSeparator : Char → Bool} {c : Char}
    (hc : isSeparator c = true) (first second : List Char) :
    pieces isSeparator (first ++ c :: second) =
      pieces isSeparator first ++ pieces isSeparator second := by
  induction first with
  | nil => simp [pieces, hc]
  | cons d rest ih =>
    by_cases hd : isSeparator d = true
    · simp [pieces, hd, ih]
    · have hne := pieces_ne_nil isSeparator rest
      cases hrest : pieces isSeparator rest with
      | nil => exact absurd hrest hne
      | cons piece more => simp [pieces, hd, ih, hrest]

theorem pieces_eq_singleton {isSeparator : Char → Bool} {text : List Char}
    (h : ∀ c ∈ text, isSeparator c = false) : pieces isSeparator text = [text] := by
  induction text with
  | nil => rfl
  | cons c rest ih =>
    obtain ⟨hc, hrest⟩ := List.forall_mem_cons.mp h
    simp [pieces, hc, ih hrest]

/-- What was joined without the separator in any piece is cut into the same pieces. -/
theorem pieces_intercalate {separator : Char} {first : List Char} {rest : List (List Char)}
    (h : ∀ piece ∈ first :: rest, separator ∉ piece) :
    pieces (· == separator) ([separator].intercalate (first :: rest)) = first :: rest := by
  have hwhole {piece : List Char} (h : separator ∉ piece) :
      pieces (· == separator) piece = [piece] := by
    refine pieces_eq_singleton fun c hc => ?_
    have hne : c ≠ separator := fun heq => h (heq ▸ hc)
    simpa using hne
  induction rest generalizing first with
  | nil => rw [List.intercalate_singleton, hwhole (h first List.mem_cons_self)]
  | cons second rest ih =>
    obtain ⟨hfirst, hrest⟩ := List.forall_mem_cons.mp h
    rw [List.intercalate_cons_cons, List.append_assoc, List.singleton_append,
      pieces_append_separator (by simp), ih hrest, hwhole hfirst, List.singleton_append]

theorem map_pieces_intercalate {separator : Char} {joint : String}
    (hjoint : joint.toList = [separator]) {found : List String} (hne : found ≠ [])
    (h : ∀ piece ∈ found, separator ∉ piece.toList) :
    (pieces (· == separator) (joint.intercalate found).toList).map String.ofList = found := by
  cases found with
  | nil => exact absurd rfl hne
  | cons first rest =>
    have hpieces : pieces (· == separator) ([separator].intercalate
        ((first :: rest).map String.toList)) = (first :: rest).map String.toList :=
      pieces_intercalate (by simpa using h)
    rw [String.toList_intercalate, hjoint, hpieces]
    simp

/-- The lines of a text: a final line break leaves an empty last line. -/
def lines (text : String) : List String :=
  (pieces (· == '\n') text.toList).map String.ofList

/-- A text is these lines, joined by line breaks. -/
structure IsLines (found : List String) (text : String) : Prop where
  nonempty : found ≠ []
  unbroken : ∀ line ∈ found, '\n' ∉ line.toList
  joined : text = "\n".intercalate found

theorem lines_eq_iff {text : String} {found : List String} :
    lines text = found ↔ IsLines found text := by
  constructor
  · rintro rfl
    refine ⟨by simp [lines, pieces_ne_nil], ?_, ?_⟩
    · intro line hline hbreak
      obtain ⟨piece, hpiece, rfl⟩ := List.mem_map.mp hline
      have hnot := not_separator_of_mem_pieces hpiece (by simpa using hbreak)
      cases hnot
    · exact (intercalate_map_pieces rfl text).symm
  · rintro ⟨hne, hunbroken, rfl⟩
    exact map_pieces_intercalate rfl hne hunbroken

end Overseer.Text
