import Overseer.Proofs.Json.Grammar

/-!
What is read is in the grammar.

The tokens of which a value is put together are the value's own (`readValue_sound`), and a text that
is taken apart into them is a spelling of them (`tokensFrom_sound`). With `Denotes.read` for the
other direction, the texts that are read as a value are its texts and no others
(`read_eq_some_iff`).
-/

namespace Overseer.Json

open Overseer.Text (Symbol)

/-! ### Tokens of the value that was read -/

section Parsing

variable {room : Nat} {ts rest : List Token}

/-- What each of the three readers takes, with room for one step less. -/
structure Sound (room : Nat) : Prop where
  value : ∀ {ts v rest}, readValue room ts = some (v, rest) → ts = v.tokens ++ rest
  items : ∀ {ts items rest}, readItems room ts = some (items, rest) →
    ∃ v more, items = v :: more ∧ ts = v.tokens ++ (itemsTokens more ++ .closeBracket :: rest)
  members : ∀ {ts members rest}, readMembers room ts = some (members, rest) →
    ∃ m more, members = m :: more ∧
      ts = memberTokens m ++ (membersTokens more ++ .closeBrace :: rest)

theorem readValue_step (ih : Sound room) {v : Value}
    (h : readValue (room + 1) ts = some (v, rest)) : ts = v.tokens ++ rest := by
  unfold readValue at h
  split at h
  case h_6 =>
    obtain ⟨⟨items, after⟩, hitems, heq⟩ := Option.map_eq_some_iff.mp h
    cases heq
    obtain ⟨v, more, rfl, rfl⟩ := ih.items hitems
    simp [Value.tokens]
  case h_8 =>
    obtain ⟨⟨members, after⟩, hmembers, heq⟩ := Option.map_eq_some_iff.mp h
    cases heq
    obtain ⟨m, more, rfl, rfl⟩ := ih.members hmembers
    simp [Value.tokens]
  case h_9 => cases h
  all_goals
    cases h
    rfl

theorem readItems_step (ih : Sound room) {items : List Value}
    (h : readItems (room + 1) ts = some (items, rest)) :
    ∃ v more, items = v :: more ∧
      ts = v.tokens ++ (itemsTokens more ++ .closeBracket :: rest) := by
  unfold readItems at h
  obtain ⟨⟨v, after⟩, hv, h⟩ := Option.bind_eq_some_iff.mp h
  have hts := ih.value hv
  dsimp only at h
  split at h
  · rename_i after
    obtain ⟨⟨more, tail⟩, hmore, heq⟩ := Option.map_eq_some_iff.mp h
    cases heq
    obtain ⟨w, more, rfl, rfl⟩ := ih.items hmore
    exact ⟨v, w :: more, rfl, by simp [hts, itemsTokens]⟩
  · cases h
    exact ⟨v, [], rfl, hts⟩
  · cases h

theorem readMembers_step (ih : Sound room) {members : List (Option String × Value)}
    (h : readMembers (room + 1) ts = some (members, rest)) :
    ∃ m more, members = m :: more ∧
      ts = memberTokens m ++ (membersTokens more ++ .closeBrace :: rest) := by
  unfold readMembers at h
  split at h
  · rename_i name after
    obtain ⟨⟨v, after⟩, hv, h⟩ := Option.bind_eq_some_iff.mp h
    have hts := ih.value hv
    dsimp only at h
    split at h
    · rename_i after
      obtain ⟨⟨more, tail⟩, hmore, heq⟩ := Option.map_eq_some_iff.mp h
      cases heq
      obtain ⟨m, more, rfl, rfl⟩ := ih.members hmore
      exact ⟨(name, v), m :: more, rfl, by simp [hts, memberTokens, membersTokens]⟩
    · cases h
      exact ⟨(name, v), [], rfl, by simp [hts, memberTokens, membersTokens]⟩
    · cases h
  · cases h

theorem sound (room : Nat) : Sound room := by
  induction room with
  | zero => constructor <;> nofun
  | succ room ih =>
    constructor
    · exact readValue_step ih
    · exact readItems_step ih
    · exact readMembers_step ih

end Parsing

/-! ### Spellings of the tokens that were read -/

section Lexing

variable {room : Nat} {text rest : List Symbol} {ts : List Token} {token : Token}

/-- A text without stray bytes. -/
def Clean (text : List Symbol) : Prop := ∀ s ∈ text, ∃ c, s = .char c

theorem clean_ofText (text : String) : Clean (Text.Symbol.ofText text) := by
  intro s hs
  obtain ⟨c, -, rfl⟩ := List.mem_map.mp hs
  exact ⟨c, rfl⟩

theorem Clean.tail {s : Symbol} (h : Clean (s :: text)) : Clean text :=
  fun t ht => h t (List.mem_cons_of_mem s ht)

theorem Clean.append_right {front : List Symbol} (h : Clean (front ++ text)) : Clean text :=
  fun t ht => h t (List.mem_append_right front ht)

theorem readPieces_sound {pieces : List Piece} (hclean : Clean text)
    (h : readPieces text = some (pieces, rest)) :
    ∃ part : List Char, text = part.map .char ++ .char '"' :: rest ∧ PiecesText pieces part := by
  fun_induction readPieces text generalizing pieces rest with
  | case1 => cases h
  | case2 b text ih =>
    obtain ⟨c, hc⟩ := hclean _ List.mem_cons_self
    cases hc
  | case3 text =>
    cases h
    exact ⟨[], rfl, .nil⟩
  | case4 a b c d text ih =>
    obtain ⟨n, hn, h⟩ := Option.bind_eq_some_iff.mp h
    obtain ⟨⟨ps, after⟩, hps, heq⟩ := Option.map_eq_some_iff.mp h
    cases heq
    have hdigits : Clean (a :: b :: c :: d :: text) := hclean.tail.tail
    obtain ⟨a, rfl⟩ := hdigits a (by simp)
    obtain ⟨b, rfl⟩ := hdigits b (by simp)
    obtain ⟨c, rfl⟩ := hdigits c (by simp)
    obtain ⟨d, rfl⟩ := hdigits d (by simp)
    obtain ⟨part, rfl, hpart⟩ := ih hdigits.tail.tail.tail.tail hps
    exact ⟨_, rfl, .cons (.digits hn) hpart⟩
  | case5 e text _ ih =>
    obtain ⟨c, hc, h⟩ := Option.bind_eq_some_iff.mp h
    obtain ⟨⟨ps, after⟩, hps, heq⟩ := Option.map_eq_some_iff.mp h
    cases heq
    obtain ⟨part, rfl, hpart⟩ := ih hclean.tail.tail hps
    exact ⟨_, rfl, .cons (.letter hc) hpart⟩
  | case6 => cases h
  | case7 c text hquote _ _ hplain ih =>
    obtain ⟨⟨ps, after⟩, hps, heq⟩ := Option.map_eq_some_iff.mp h
    cases heq
    obtain ⟨part, rfl, hpart⟩ := ih hclean.tail hps
    have hpiece : PieceText (.char c) [c] := by
      rw [not_or] at hplain
      exact .plain (fun heq => hquote heq) hplain.2 (Nat.not_lt.mp hplain.1)
    exact ⟨_, rfl, .cons hpiece hpart⟩

/-- A token that was read is spelled by what was taken; a number only if nothing follows that could
belong to it. -/
theorem readToken_sound (hclean : Clean text) (h : readToken text = some (token, rest))
    (hends : (∃ n, token = .number n) → Ends rest) :
    ∃ lexeme : List Char, text = lexeme.map .char ++ rest ∧ Lexeme token lexeme := by
  unfold readToken at h
  split at h
  case h_7 text =>
    obtain ⟨⟨pieces, after⟩, hpieces, heq⟩ := Option.map_eq_some_iff.mp h
    cases heq
    obtain ⟨part, rfl, hpart⟩ := readPieces_sound hclean.tail hpieces
    exact ⟨'"' :: (part ++ ['"']), by simp, .string hpart⟩
  case h_11 =>
    obtain ⟨⟨n, after⟩, hn, heq⟩ := Option.map_eq_some_iff.mp h
    cases heq
    obtain ⟨number, rfl, hnumber⟩ := readNumber_sound hn
    have hall := readNumber_append (hends ⟨n, rfl⟩) (readNumber_numberOf hnumber)
    rw [hn] at hall
    cases hall
    exact ⟨number, rfl, .number hnumber⟩
  all_goals cases h
  · exact ⟨['\x7b'], rfl, .openBrace⟩
  · exact ⟨['\x7d'], rfl, .closeBrace⟩
  · exact ⟨['['], rfl, .openBracket⟩
  · exact ⟨[']'], rfl, .closeBracket⟩
  · exact ⟨[','], rfl, .comma⟩
  · exact ⟨[':'], rfl, .colon⟩
  · exact ⟨['n', 'u', 'l', 'l'], rfl, .nullWord⟩
  · exact ⟨['t', 'r', 'u', 'e'], rfl, .trueWord⟩
  · exact ⟨['f', 'a', 'l', 's', 'e'], rfl, .falseWord⟩

theorem stops_of_readToken {s : Symbol} (h : readToken (s :: text) = some (token, rest))
    (hcloses : token.Closes) : Stops s := by
  unfold readToken at h
  split at h
  case h_7 | h_11 =>
    obtain ⟨found, -, heq⟩ := Option.map_eq_some_iff.mp h
    cases heq
    simp [Token.Closes] at hcloses
  case h_2 | h_4 | h_5 =>
    rename_i heq
    cases heq
    exact stops_of_mem (by simp)
  all_goals
    cases h
    simp [Token.Closes] at hcloses

theorem stops_of_isBlank {s : Symbol} (h : isBlank s = true) : Stops s := by
  cases s with
  | stray b => cases h
  | char c =>
    apply stops_of_mem
    simp only [isBlank, decide_eq_true_eq] at h
    rcases h with rfl | rfl | rfl | rfl
    all_goals simp

/-- A number ends where tokens were read that close it. -/
theorem ends_of_tokensFrom (h : tokensFrom room text = some ts)
    (hhead : ∀ t ∈ ts.head?, t.Closes) : Ends text := by
  rintro s hs
  cases text with
  | nil => cases hs
  | cons first text =>
    cases hs
    cases hblank : isBlank s with
    | true => exact stops_of_isBlank hblank
    | false =>
      cases room with
      | zero => simp [tokensFrom, hblank] at h
      | succ room =>
        simp only [tokensFrom, List.dropWhile_cons, hblank, Bool.false_eq_true, if_false] at h
        obtain ⟨⟨token, rest⟩, htoken, h⟩ := Option.bind_eq_some_iff.mp h
        obtain ⟨more, -, rfl⟩ := Option.map_eq_some_iff.mp h
        exact stops_of_readToken htoken (hhead token rfl)

theorem exists_blanks (hclean : Clean text) :
    ∃ blanks, Blanks blanks ∧ text = blanks.map .char ++ text.dropWhile isBlank := by
  induction text with
  | nil => exact ⟨[], nofun, rfl⟩
  | cons s text ih =>
    cases hblank : isBlank s with
    | false => exact ⟨[], nofun, by simp [hblank]⟩
    | true =>
      obtain ⟨blanks, hblanks, htext⟩ := ih hclean.tail
      obtain ⟨c, rfl⟩ := hclean s List.mem_cons_self
      have hc : c ∈ [' ', '\t', '\n', '\r'] := by simpa [isBlank] using hblank
      refine ⟨c :: blanks, ?_, by simpa [hblank] using htext⟩
      exact List.forall_mem_cons.mpr ⟨hc, hblanks⟩

/-- A text that was taken apart is a spelling of the tokens. -/
theorem tokensFrom_sound (hclean : Clean text) (hseparated : Separated ts)
    (h : tokensFrom room text = some ts) : ∃ chars, text = chars.map .char ∧ Layout ts chars := by
  induction room generalizing text ts with
  | zero =>
    obtain ⟨blanks, hblanks, htext⟩ := exists_blanks hclean
    simp only [tokensFrom] at h
    split at h
    · rename_i hnone
      cases h
      rw [hnone, List.append_nil] at htext
      exact ⟨blanks, htext, .finish hblanks⟩
    · cases h
  | succ room ih =>
    obtain ⟨blanks, hblanks, htext⟩ := exists_blanks hclean
    simp only [tokensFrom] at h
    split at h
    · rename_i hnone
      cases h
      rw [hnone, List.append_nil] at htext
      exact ⟨blanks, htext, .finish hblanks⟩
    · obtain ⟨⟨token, rest⟩, htoken, h⟩ := Option.bind_eq_some_iff.mp h
      obtain ⟨more, hmore, rfl⟩ := Option.map_eq_some_iff.mp h
      obtain ⟨hnext, hseparated⟩ := List.isChain_cons.mp hseparated
      have hends (hnumber : ∃ n, token = .number n) : Ends rest :=
        ends_of_tokensFrom hmore fun t ht => hnext t ht hnumber
      rw [htext] at hclean
      obtain ⟨lexeme, hlexeme, hspelled⟩ := readToken_sound hclean.append_right htoken hends
      rw [hlexeme] at hclean htext
      obtain ⟨chars, rfl, hchars⟩ := ih hclean.append_right.append_right hseparated hmore
      exact ⟨blanks ++ (lexeme ++ chars), by simpa using htext, .token hblanks hspelled hchars⟩

end Lexing

/-! ### Reading a text -/

/-- The texts that are read as a value are the value's texts. -/
theorem read_eq_some_iff {text : String} {v : Value} :
    read text.toUTF8 = some v ↔ Denotes text v := by
  constructor
  · intro h
    unfold read at h
    rw [Text.Symbol.ofBytes_toUTF8] at h
    obtain ⟨ts, hts, h⟩ := Option.bind_eq_some_iff.mp h
    split at h
    · rename_i heq
      cases h
      have hvalue := (sound _).value heq
      rw [List.append_nil] at hvalue
      subst hvalue
      obtain ⟨chars, hchars, hlayout⟩ := tokensFrom_sound (clean_ofText text) v.separated hts
      have hsame : text.toList = chars :=
        (List.map_inj_right fun _ _ => Symbol.char.inj).mp hchars
      rw [Denotes, hsame]
      exact hlayout
    · cases h
  · exact Denotes.read

end Overseer.Json
