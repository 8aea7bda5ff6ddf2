import Overseer.Proofs.Json.Grammar

/-!
Reading written values.

What is written for a value is a text for it (`Value.Writable.denotes`): one spelling of its
tokens, with no blanks between them. So it is read as that value (`read_render`), and it tells which
value it was written for.
-/

namespace Overseer.Json

/-- A value whose numbers are read back, and whose strings and names have a text. -/
inductive Value.Writable : Value → Prop where
  | null : Writable .null
  | bool (b : Bool) : Writable (.bool b)
  | number {n : Number} (h : n.Writable) : Writable (.number n)
  | text (s : String) : Writable (.text s)
  | array {items : List Value} (h : ∀ v ∈ items, v.Writable) : Writable (.array items)
  | record {members : List (String × Value)} (h : ∀ m ∈ members, m.2.Writable) :
      Writable (.record members)

/-- Members with their names. -/
def named (members : List (String × Value)) : List (Option String × Value) :=
  members.map fun m => (some m.1, m.2)

theorem record_eq (members : List (String × Value)) :
    Value.record members = .object (named members) := rfl

/-! ### Spellings -/

theorem lexeme_number {n : Number} (h : n.Writable) : Lexeme (.number n) n.text := by
  have hread : readNumber (n.text.map .char ++ []) = some (n, []) := h.read nofun
  rw [List.append_nil] at hread
  have hvalue : numberOf n.text = n := by simp [numberOf, hread]
  have hlexeme := Lexeme.number (numberText_iff.mpr ⟨n, hread⟩)
  rwa [hvalue] at hlexeme

theorem lexeme_text (s : String) : Lexeme (.string (some s)) (stringText s) := by
  have hpieces := Lexeme.string (piecesText_written s.toList)
  rw [joinPieces_pieces, Option.map_some, String.ofList_toList] at hpieces
  exact hpieces

/-! ### Texts of written values -/

section

variable {v : Value}

theorem layout_items {items : List Value} (h : ∀ v ∈ items, Layout v.tokens v.chars) :
    Layout (itemsTokens items) (itemsChars items) := by
  induction items with
  | nil => exact .finish nofun
  | cons v items ih =>
    obtain ⟨hv, hitems⟩ := List.forall_mem_cons.mp h
    exact ((Layout.single .comma).append hv).append (ih hitems)

theorem layout_array {items : List Value} (h : ∀ v ∈ items, Layout v.tokens v.chars) :
    Layout (Value.array items).tokens (Value.array items).chars := by
  cases items with
  | nil => exact (Layout.single .openBracket).append (.single .closeBracket)
  | cons v items =>
    obtain ⟨hv, hitems⟩ := List.forall_mem_cons.mp h
    have hopen := (Layout.single .openBracket).append hv
    exact (hopen.append (layout_items hitems)).append (.single .closeBracket)

theorem layout_member (name : String) (h : Layout v.tokens v.chars) :
    Layout (memberTokens (some name, v)) (memberChars (some name, v)) := by
  have hcolon := (Layout.single .colon).append h
  exact (Layout.single (lexeme_text name)).append hcolon

theorem layout_members {members : List (String × Value)}
    (h : ∀ m ∈ members, Layout m.2.tokens m.2.chars) :
    Layout (membersTokens (named members)) (membersChars (named members)) := by
  induction members with
  | nil => exact .finish nofun
  | cons m members ih =>
    obtain ⟨hm, hmembers⟩ := List.forall_mem_cons.mp h
    exact ((Layout.single .comma).append (layout_member m.1 hm)).append (ih hmembers)

theorem layout_record {members : List (String × Value)}
    (h : ∀ m ∈ members, Layout m.2.tokens m.2.chars) :
    Layout (Value.record members).tokens (Value.record members).chars := by
  cases members with
  | nil => exact (Layout.single .openBrace).append (.single .closeBrace)
  | cons m members =>
    obtain ⟨hm, hmembers⟩ := List.forall_mem_cons.mp h
    have hopen := (Layout.single .openBrace).append (layout_member m.1 hm)
    exact (hopen.append (layout_members hmembers)).append (.single .closeBrace)

theorem Value.Writable.layout (h : v.Writable) : Layout v.tokens v.chars := by
  induction h with
  | null => exact .single .nullWord
  | bool b =>
    cases b with
    | true => exact .single .trueWord
    | false => exact .single .falseWord
  | number h => exact .single (lexeme_number h)
  | text s => exact .single (lexeme_text s)
  | array h ih => exact layout_array ih
  | record h ih => exact layout_record ih

/-- What is written for a value is a text for it. -/
theorem Value.Writable.denotes (h : v.Writable) : Denotes v.render v := by
  simpa [Denotes, Value.render] using h.layout

/-- What is written for a value is read as that value. -/
theorem read_render (h : v.Writable) : read v.render.toUTF8 = some v := h.denotes.read

end

end Overseer.Json
