import Mathlib.Data.List.Chain
import Mathlib.Data.List.TakeWhile
import Overseer.Json.Reader
import Overseer.Proofs.Json.NumberTexts
import Overseer.Proofs.Json.Texts

/-!
The texts of JSON values.

A text is for a value (`Denotes`) if it is made of the value's tokens, in whatever spelling and with
whatever blanks between them. Such a text is taken apart into the tokens (`Layout.tokens`), and they
are put together to the value (`Value.parses`), so that it is read as that value (`Denotes.read`):
nothing that the grammar has is refused, and no spelling changes what is read.
-/

namespace Overseer.Json

open Overseer.Text (Symbol)

/-! ### Values by their parts -/

/-- What holds of an array if it holds of its items, and of an object if it holds of its members'
values, holds of every value. -/
@[elab_as_elim]
theorem Value.induct {motive : Value → Prop} (null : motive .null)
    (bool : ∀ b, motive (.bool b)) (number : ∀ n, motive (.number n))
    (string : ∀ s, motive (.string s))
    (array : ∀ items, (∀ v ∈ items, motive v) → motive (.array items))
    (object : ∀ members, (∀ m ∈ members, motive m.2) → motive (.object members)) (v : Value) :
    motive v :=
  @Value.rec motive (fun items => ∀ v ∈ items, motive v) (fun members => ∀ m ∈ members, motive m.2)
    (fun m => motive m.2) null bool number string array object nofun
    (fun _ _ h hrest => List.forall_mem_cons.mpr ⟨h, hrest⟩) nofun
    (fun _ _ h hrest => List.forall_mem_cons.mpr ⟨h, hrest⟩) (fun _ _ h => h) v

mutual

/-- The tokens that a value is written with. -/
def Value.tokens : Value → List Token
  | .null => [.null]
  | .bool b => [.bool b]
  | .number n => [.number n]
  | .string s => [.string s]
  | .array [] => [.openBracket, .closeBracket]
  | .array (item :: rest) => .openBracket :: item.tokens ++ itemsTokens rest ++ [.closeBracket]
  | .object [] => [.openBrace, .closeBrace]
  | .object (m :: rest) => .openBrace :: memberTokens m ++ membersTokens rest ++ [.closeBrace]
termination_by structural v => v

/-- Further items, each after a comma. -/
def itemsTokens : List Value → List Token
  | [] => []
  | item :: rest => .comma :: item.tokens ++ itemsTokens rest
termination_by structural items => items

/-- Further members, each after a comma. -/
def membersTokens : List (Option String × Value) → List Token
  | [] => []
  | m :: rest => .comma :: memberTokens m ++ membersTokens rest
termination_by structural members => members

/-- A name, a colon and a value. -/
def memberTokens : Option String × Value → List Token
  | (name, v) => .string name :: .colon :: v.tokens
termination_by structural m => m

end

theorem memberTokens_eq (m : Option String × Value) :
    memberTokens m = .string m.1 :: .colon :: m.2.tokens := by
  cases m
  rfl

/-! ### The grammar of texts -/

/-- The number that a text is for; a text that is none stands for no double. -/
def numberOf (text : List Char) : Number :=
  ((readNumber (text.map .char)).map (·.1)).getD .outOfRange

/-- How a token can be spelled. -/
inductive Lexeme : Token → List Char → Prop where
  | openBrace : Lexeme .openBrace ['\x7b']
  | closeBrace : Lexeme .closeBrace ['\x7d']
  | openBracket : Lexeme .openBracket ['[']
  | closeBracket : Lexeme .closeBracket [']']
  | comma : Lexeme .comma [',']
  | colon : Lexeme .colon [':']
  | nullWord : Lexeme .null ['n', 'u', 'l', 'l']
  | trueWord : Lexeme (.bool true) ['t', 'r', 'u', 'e']
  | falseWord : Lexeme (.bool false) ['f', 'a', 'l', 's', 'e']
  | number {text : List Char} (h : NumberText text) : Lexeme (.number (numberOf text)) text
  | string {pieces : List Piece} {text : List Char} (h : PiecesText pieces text) :
      Lexeme (.string ((joinPieces pieces).map String.ofList)) ('"' :: (text ++ ['"']))

/-- Blanks, line ends among them. -/
def Blanks (text : List Char) : Prop := ∀ c ∈ text, c ∈ [' ', '\t', '\n', '\r']

/-- Tokens with blanks before, between and after them. -/
inductive Layout : List Token → List Char → Prop where
  | finish {blanks : List Char} (h : Blanks blanks) : Layout [] blanks
  | token {blanks lexeme text : List Char} {token : Token} {ts : List Token}
      (hblanks : Blanks blanks) (h : Lexeme token lexeme) (hrest : Layout ts text) :
      Layout (token :: ts) (blanks ++ (lexeme ++ text))

/-- A text is for a value. -/
def Denotes (text : String) (v : Value) : Prop := Layout v.tokens text.toList

theorem Layout.single {token : Token} {lexeme : List Char} (h : Lexeme token lexeme) :
    Layout [token] lexeme := by
  have hnone : Blanks [] := nofun
  simpa using Layout.token hnone h (.finish hnone)

theorem Layout.blanks {blanks text : List Char} {ts : List Token} (hblanks : Blanks blanks)
    (h : Layout ts text) : Layout ts (blanks ++ text) := by
  cases h with
  | finish h =>
    exact .finish fun c hc => (List.mem_append.mp hc).elim (hblanks c) (h c)
  | token h hlexeme hrest =>
    rw [← List.append_assoc]
    exact .token (fun c hc => (List.mem_append.mp hc).elim (hblanks c) (h c)) hlexeme hrest

theorem Layout.append {text more : List Char} {ts us : List Token} (h : Layout ts text)
    (hmore : Layout us more) : Layout (ts ++ us) (text ++ more) := by
  induction h with
  | finish h => exact hmore.blanks h
  | token hblanks hlexeme _ ih =>
    rw [List.append_assoc, List.append_assoc]
    exact .token hblanks hlexeme ih

/-! ### Taking a text apart -/

section Lexing

variable {room : Nat} {text rest : List Symbol} {ts : List Token} {token : Token}

theorem readToken_number {n : Number} (h : readNumber text = some (n, rest)) :
    readToken text = some (.number n, rest) := by
  obtain ⟨c, more, rfl, hc⟩ := head_of_readNumber h
  unfold readToken
  split
  case h_11 => rw [h]; rfl
  all_goals
    rename_i heq
    cases heq
    exact absurd hc (by decide)

theorem readNumber_numberOf {number : List Char} (h : NumberText number) :
    readNumber (number.map .char) = some (numberOf number, []) := by
  obtain ⟨n, hn⟩ := h.read
  simp [numberOf, hn]

/-- The tokens that can follow a number. -/
def Token.Closes (token : Token) : Prop := token ∈ [.comma, .closeBracket, .closeBrace]

/-- A spelling is read as its token; behind a number there must be an end of the number. -/
theorem Lexeme.read {lexeme : List Char} (h : Lexeme token lexeme)
    (hrest : (∃ n, token = .number n) → Ends rest) :
    readToken (lexeme.map .char ++ rest) = some (token, rest) := by
  cases h with
  | number h =>
    exact readToken_number (readNumber_append (hrest ⟨_, rfl⟩) (readNumber_numberOf h))
  | string h => simp [readToken, h.read]
  | _ => rfl

theorem isBlank_of_number {c : Char} (hc : c = '-' ∨ c.isDigit = true) :
    isBlank (.char c) = false := by
  simp only [isBlank, decide_eq_false_iff_not]
  rintro (rfl | rfl | rfl | rfl)
  all_goals
    revert hc
    decide

/-- No spelling starts with a blank. -/
theorem Lexeme.head {lexeme : List Char} (h : Lexeme token lexeme) :
    ∃ c more, lexeme = c :: more ∧ isBlank (.char c) = false := by
  cases h with
  | number h =>
    obtain ⟨c, more, htext, hc⟩ := head_of_readNumber (readNumber_numberOf h)
    obtain ⟨first, text, rfl, heq, -⟩ := List.map_eq_cons_iff.mp htext
    exact ⟨first, text, rfl, isBlank_of_number (Symbol.char.inj heq ▸ hc)⟩
  | _ => exact ⟨_, _, rfl, rfl⟩

/-- Tokens among which a number is followed by nothing that could belong to it. -/
def Separated (ts : List Token) : Prop :=
  List.IsChain (fun a b => (∃ n, a = .number n) → b.Closes) ts

theorem Blanks.isBlank {blanks : List Char} (h : Blanks blanks) :
    ∀ s ∈ blanks.map Symbol.char, isBlank s = true := by
  intro s hs
  obtain ⟨c, hc, rfl⟩ := List.mem_map.mp hs
  simpa [Json.isBlank] using h c hc

theorem stops_of_mem {c : Char} (hc : c ∈ [' ', '\t', '\n', '\r', ',', ']', '\x7d']) :
    Stops (.char c) := by
  simp only [List.mem_cons, List.not_mem_nil, or_false] at hc
  rcases hc with rfl | rfl | rfl | rfl | rfl | rfl | rfl
  all_goals
    constructor
    all_goals decide

theorem Lexeme.stops {lexeme more : List Char} {c : Char} (h : Lexeme token lexeme)
    (hcloses : token.Closes) (hc : (lexeme ++ more).head? = some c) : Stops (.char c) := by
  simp only [Token.Closes, List.mem_cons, List.not_mem_nil, or_false] at hcloses
  rcases hcloses with rfl | rfl | rfl
  all_goals
    cases h
    cases hc
    exact stops_of_mem (by simp)

/-- A number ends before blanks, before what closes it and at the end of the text. -/
theorem Layout.ends {chars : List Char} (h : Layout ts chars) (hhead : ∀ t ∈ ts.head?, t.Closes) :
    Ends (chars.map .char) := by
  intro s hs
  rw [List.head?_map] at hs
  obtain ⟨c, hc, rfl⟩ := Option.map_eq_some_iff.mp hs
  have hblank (hc : c ∈ [' ', '\t', '\n', '\r']) : Stops (.char c) :=
    stops_of_mem (List.mem_append_left [',', ']', '\x7d'] hc)
  cases h with
  | finish h => exact hblank (h c (List.mem_of_head? hc))
  | @token blanks lexeme text token ts hblanks h _ =>
    cases blanks with
    | nil => exact h.stops (hhead token rfl) hc
    | cons first blanks =>
      cases hc
      exact hblank (hblanks c List.mem_cons_self)

/-- A text is taken apart into its tokens. -/
theorem Layout.tokensFrom {chars : List Char} (h : Layout ts chars) (hseparated : Separated ts)
    (hroom : chars.length ≤ room) : tokensFrom room (chars.map .char) = some ts := by
  induction h generalizing room with
  | finish h =>
    have hnone := List.dropWhile_eq_nil_iff.mpr h.isBlank
    cases room with
    | zero => simp [Json.tokensFrom, hnone]
    | succ room => simp [Json.tokensFrom, hnone]
  | @token blanks lexeme text token ts hblanks h hrest ih =>
    obtain ⟨c, more, rfl, hc⟩ := h.head
    cases room with
    | zero => simp at hroom
    | succ room =>
      have hends : (∃ n, token = .number n) → Ends (text.map .char) := by
        intro hnumber
        apply hrest.ends
        intro t ht
        exact (List.isChain_cons.mp hseparated).1 t ht hnumber
      have hread := h.read hends
      have hlength : text.length ≤ room := by
        simp only [List.length_append, List.length_cons] at hroom
        omega
      have hmore : Json.tokensFrom room (text.map .char) = some ts :=
        ih (List.isChain_cons.mp hseparated).2 hlength
      have hdrop : ((blanks ++ (c :: more ++ text)).map Symbol.char).dropWhile isBlank =
          .char c :: (more.map .char ++ text.map .char) := by
        rw [List.map_append, List.dropWhile_append_of_pos hblanks.isBlank]
        simp [hc]
      simp only [List.map_cons, List.cons_append] at hread
      simp only [Json.tokensFrom, hdrop, hread, hmore, Option.bind_some, Option.map_some]

/-- What can follow a value. -/
structure Follows (ts : List Token) : Prop where
  separated : Separated ts
  head : ∀ t ∈ ts.head?, t.Closes

theorem separated_mark (hmark : ∀ n, token ≠ .number n) (h : Separated ts) :
    Separated (token :: ts) := by
  apply List.isChain_cons.mpr
  constructor
  · rintro t - ⟨n, hn⟩
    exact absurd hn (hmark n)
  · exact h

theorem separated_scalar (h : Follows ts) : Separated (token :: ts) :=
  List.isChain_cons.mpr ⟨fun t ht _ => h.head t ht, h.separated⟩

theorem follows_close (hcloses : token.Closes) (h : Separated ts) : Follows (token :: ts) := by
  constructor
  · apply separated_mark _ h
    rintro n rfl
    simp [Token.Closes] at hcloses
  · rintro t ⟨⟩
    exact hcloses

/-- The tokens of a value stay separated before whatever can follow it. -/
def Fronts (v : Value) : Prop := ∀ ts, Follows ts → Separated (v.tokens ++ ts)

theorem follows_items {items : List Value} (h : ∀ v ∈ items, Fronts v) (hts : Follows ts) :
    Follows (itemsTokens items ++ ts) := by
  induction items with
  | nil => exact hts
  | cons v items ih =>
    obtain ⟨hv, hitems⟩ := List.forall_mem_cons.mp h
    have hrest : Separated (v.tokens ++ (itemsTokens items ++ ts)) := hv _ (ih hitems)
    have hcomma : Token.comma.Closes := by simp [Token.Closes]
    simpa [itemsTokens] using follows_close hcomma hrest

theorem fronts_member (name : Option String) {v : Value} (h : Fronts v) (hts : Follows ts) :
    Separated (memberTokens (name, v) ++ ts) :=
  separated_mark nofun (separated_mark nofun (h ts hts))

theorem follows_members {members : List (Option String × Value)} (h : ∀ m ∈ members, Fronts m.2)
    (hts : Follows ts) : Follows (membersTokens members ++ ts) := by
  induction members with
  | nil => exact hts
  | cons m members ih =>
    obtain ⟨hm, hmembers⟩ := List.forall_mem_cons.mp h
    have hrest := fronts_member m.1 hm (ih hmembers)
    have hcomma : Token.comma.Closes := by simp [Token.Closes]
    simpa [membersTokens] using follows_close hcomma hrest

theorem fronts_array {items : List Value} (h : ∀ v ∈ items, Fronts v) : Fronts (.array items) := by
  intro ts hts
  have hclose : Follows (.closeBracket :: ts) :=
    follows_close (by simp [Token.Closes]) hts.separated
  cases items with
  | nil => exact separated_mark nofun hclose.separated
  | cons v items =>
    obtain ⟨hv, hitems⟩ := List.forall_mem_cons.mp h
    have hrest := hv _ (follows_items hitems hclose)
    have hopen : ∀ n, Token.openBracket ≠ .number n := nofun
    simpa [Value.tokens] using separated_mark hopen hrest

theorem fronts_object {members : List (Option String × Value)} (h : ∀ m ∈ members, Fronts m.2) :
    Fronts (.object members) := by
  intro ts hts
  have hclose : Follows (.closeBrace :: ts) :=
    follows_close (by simp [Token.Closes]) hts.separated
  cases members with
  | nil => exact separated_mark nofun hclose.separated
  | cons m members =>
    obtain ⟨hm, hmembers⟩ := List.forall_mem_cons.mp h
    have hrest := fronts_member m.1 hm (follows_members hmembers hclose)
    have hopen : ∀ n, Token.openBrace ≠ .number n := nofun
    simpa [Value.tokens] using separated_mark hopen hrest

theorem Value.fronts (v : Value) : Fronts v := by
  induction v using Value.induct with
  | array items ih => exact fronts_array ih
  | object members ih => exact fronts_object ih
  | _ =>
    intro ts hts
    exact separated_scalar hts

theorem Value.separated (v : Value) : Separated v.tokens := by
  have hnone : Follows [] := ⟨.nil, nofun⟩
  simpa using v.fronts [] hnone

end Lexing

/-! ### Putting tokens together -/

section Parsing

variable {room : Nat} {rest : List Token}

/-- The tokens of a value give the value, whatever follows them. -/
def Parses (v : Value) : Prop :=
  ∀ {room rest}, 2 * v.tokens.length ≤ room + 1 → readValue room (v.tokens ++ rest) = some (v, rest)

/-- No value begins with the end of an array. -/
theorem head_tokens_ne (v : Value) : ∃ t more, v.tokens = t :: more ∧ t ≠ .closeBracket := by
  cases v with
  | array items => cases items <;> exact ⟨_, _, rfl, nofun⟩
  | object members => cases members <;> exact ⟨_, _, rfl, nofun⟩
  | _ => exact ⟨_, _, rfl, nofun⟩

theorem readValue_openBracket (v : Value) (more : List Token) :
    readValue (room + 1) (.openBracket :: (v.tokens ++ more)) =
      (readItems room (v.tokens ++ more)).map fun found => (.array found.1, found.2) := by
  obtain ⟨t, tokens, ht, hne⟩ := head_tokens_ne v
  rw [ht, List.cons_append]
  cases t <;> first | rfl | exact absurd rfl hne

theorem parses_items {v : Value} {items : List Value} (hv : Parses v) (h : ∀ v ∈ items, Parses v)
    (hroom : 2 * (v.tokens.length + (itemsTokens items).length + 1) ≤ room) :
    readItems room (v.tokens ++ (itemsTokens items ++ .closeBracket :: rest)) =
      some (v :: items, rest) := by
  induction items generalizing v room with
  | nil =>
    cases room with
    | zero => omega
    | succ room =>
      have hread : readValue room (v.tokens ++ .closeBracket :: rest) =
          some (v, .closeBracket :: rest) := hv (by omega)
      simp [readItems, itemsTokens, hread]
  | cons w items ih =>
    obtain ⟨hw, hitems⟩ := List.forall_mem_cons.mp h
    cases room with
    | zero => omega
    | succ room =>
      have hlength : (itemsTokens (w :: items)).length =
          w.tokens.length + (itemsTokens items).length + 1 := by
        simp [itemsTokens]
      have hmore : readItems room (w.tokens ++ (itemsTokens items ++ .closeBracket :: rest)) =
          some (w :: items, rest) := ih hw hitems (by omega)
      have hread (more : List Token) : readValue room (v.tokens ++ more) = some (v, more) :=
        hv (by omega)
      simp [readItems, itemsTokens, hread, hmore]

theorem parses_array {items : List Value} (h : ∀ v ∈ items, Parses v) : Parses (.array items) := by
  intro room rest hroom
  have hpositive : 0 < (Value.array items).tokens.length := by cases items <;> simp [Value.tokens]
  cases room with
  | zero => omega
  | succ room =>
    cases items with
    | nil => rfl
    | cons v items =>
      obtain ⟨hv, hitems⟩ := List.forall_mem_cons.mp h
      have hlength : (Value.array (v :: items)).tokens.length =
          v.tokens.length + (itemsTokens items).length + 1 + 1 := by
        simp [Value.tokens]
        omega
      have hread : readItems room (v.tokens ++ (itemsTokens items ++ .closeBracket :: rest)) =
          some (v :: items, rest) := parses_items hv hitems (by omega)
      have htokens : (Value.array (v :: items)).tokens ++ rest =
          .openBracket :: (v.tokens ++ (itemsTokens items ++ .closeBracket :: rest)) := by
        simp [Value.tokens]
      rw [htokens, readValue_openBracket, hread]
      rfl

theorem parses_members {m : Option String × Value} {members : List (Option String × Value)}
    (hm : Parses m.2) (h : ∀ m ∈ members, Parses m.2)
    (hroom : 2 * (m.2.tokens.length + (membersTokens members).length + 1) ≤ room) :
    readMembers room (memberTokens m ++ (membersTokens members ++ .closeBrace :: rest)) =
      some (m :: members, rest) := by
  induction members generalizing m room with
  | nil =>
    cases room with
    | zero => omega
    | succ room =>
      have hread : readValue room (m.2.tokens ++ .closeBrace :: rest) =
          some (m.2, .closeBrace :: rest) := hm (by omega)
      simp [readMembers, memberTokens_eq, membersTokens, hread]
  | cons next members ih =>
    obtain ⟨hnext, hmembers⟩ := List.forall_mem_cons.mp h
    cases room with
    | zero => omega
    | succ room =>
      have hlength : (membersTokens (next :: members)).length =
          next.2.tokens.length + (membersTokens members).length + 3 := by
        simp [membersTokens, memberTokens_eq]
      have hmore : readMembers room
          (memberTokens next ++ (membersTokens members ++ .closeBrace :: rest)) =
            some (next :: members, rest) := ih hnext hmembers (by omega)
      have hread (more : List Token) : readValue room (m.2.tokens ++ more) = some (m.2, more) :=
        hm (by omega)
      rw [membersTokens, memberTokens_eq m]
      simp only [readMembers, List.cons_append, List.append_assoc, hread, Option.bind_some, hmore,
        Option.map_some]

theorem parses_object {members : List (Option String × Value)} (h : ∀ m ∈ members, Parses m.2) :
    Parses (.object members) := by
  intro room rest hroom
  have hpositive : 0 < (Value.object members).tokens.length := by
    cases members <;> simp [Value.tokens]
  cases room with
  | zero => omega
  | succ room =>
    cases members with
    | nil => rfl
    | cons m members =>
      obtain ⟨hm, hmembers⟩ := List.forall_mem_cons.mp h
      have hlength : (Value.object (m :: members)).tokens.length =
          m.2.tokens.length + (membersTokens members).length + 4 := by
        simp [Value.tokens, memberTokens_eq]
        omega
      have hread : readMembers room
          (memberTokens m ++ (membersTokens members ++ .closeBrace :: rest)) =
            some (m :: members, rest) := parses_members hm hmembers (by omega)
      have htokens : (Value.object (m :: members)).tokens ++ rest =
          .openBrace :: (memberTokens m ++ (membersTokens members ++ .closeBrace :: rest)) := by
        simp [Value.tokens]
      have hopen (ts : List Token) : readValue (room + 1) (.openBrace :: (memberTokens m ++ ts)) =
          (readMembers room (memberTokens m ++ ts)).map
            fun found => (.object found.1, found.2) := by
        rw [memberTokens_eq]
        rfl
      rw [htokens, hopen, hread]
      rfl

theorem Value.parses (v : Value) : Parses v := by
  induction v using Value.induct with
  | array items ih => exact parses_array ih
  | object members ih => exact parses_object ih
  | _ =>
    intro room rest hroom
    cases room with
    | zero => simp [Value.tokens] at hroom
    | succ room => rfl

end Parsing

/-! ### Reading a text -/

/-- A text is read as the value that it is for. -/
theorem Denotes.read {text : String} {v : Value} (h : Denotes text v) :
    Json.read text.toUTF8 = some v := by
  have htokens : tokens (text.toList.map .char) = some v.tokens :=
    h.tokensFrom v.separated (by simp)
  have hparsed : readValue (2 * v.tokens.length + 1) (v.tokens ++ []) = some (v, []) :=
    v.parses (by omega)
  rw [List.append_nil] at hparsed
  unfold Json.read
  rw [Text.Symbol.ofBytes_toUTF8, Text.Symbol.ofText, htokens]
  simp only [Option.bind_eq_bind, Option.bind_some, hparsed]

end Overseer.Json
