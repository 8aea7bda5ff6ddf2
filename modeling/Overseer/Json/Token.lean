import Overseer.Json.Number
import Overseer.Text.Hex

/-!
The tokens of JSON text.

A control character inside a string, an unknown escape and an unknown word are faults of the text
itself. A string whose escapes or bytes give no text is still a token.
-/

namespace Overseer.Json

open Overseer.Text (Symbol)

inductive Token where
  | openBrace
  | closeBrace
  | openBracket
  | closeBracket
  | comma
  | colon
  | null
  | bool (b : Bool)
  | number (n : Number)
  | string (text : Option String)

/-- A part of a string between quotes: a character, a stray byte or an escaped 16-bit unit. -/
inductive Piece where
  | char (c : Char)
  | stray (byte : UInt8)
  | unit (n : Nat)

/-- The character of a one-letter escape. -/
def simpleEscape? : Char → Option Char
  | '"' => some '"'
  | '\\' => some '\\'
  | '/' => some '/'
  | 'b' => some '\x08'
  | 'f' => some '\x0c'
  | 'n' => some '\n'
  | 'r' => some '\r'
  | 't' => some '\t'
  | _ => none

/-- The value of a digit of a `\u` escape. -/
def hexDigit? : Symbol → Option Nat
  | .char c => Text.Hex.value? c
  | .stray _ => none

def fourDigits? (a b c d : Symbol) : Option Nat := do
  let a ← hexDigit? a
  let b ← hexDigit? b
  let c ← hexDigit? c
  let d ← hexDigit? d
  return ((a * 16 + b) * 16 + c) * 16 + d

/-- The pieces up to the closing quote, and what follows it. -/
def readPieces : List Symbol → Option (List Piece × List Symbol)
  | [] => none
  | .stray b :: rest => (readPieces rest).map fun (ps, rest) => (.stray b :: ps, rest)
  | .char '"' :: rest => some ([], rest)
  | .char '\\' :: .char 'u' :: a :: b :: c :: d :: rest =>
    (fourDigits? a b c d).bind fun n =>
      (readPieces rest).map fun (ps, rest) => (.unit n :: ps, rest)
  | .char '\\' :: .char e :: rest =>
    (simpleEscape? e).bind fun c =>
      (readPieces rest).map fun (ps, rest) => (.char c :: ps, rest)
  | .char c :: rest =>
    if c.toNat < 0x20 ∨ c = '\\' then none
    else (readPieces rest).map fun (ps, rest) => (.char c :: ps, rest)

/-- The first half of a surrogate pair. -/
def isHighSurrogate (n : Nat) : Bool := 0xD800 ≤ n && n < 0xDC00

/-- The second half of a surrogate pair. -/
def isLowSurrogate (n : Nat) : Bool := 0xDC00 ≤ n && n < 0xE000

/-- The characters of the pieces, if they make up a text. -/
def joinPieces : List Piece → Option (List Char)
  | [] => some []
  | .stray _ :: _ => none
  | .char c :: rest => (joinPieces rest).map (c :: ·)
  | .unit high :: .unit low :: rest =>
    if isHighSurrogate high then
      if isLowSurrogate low then
        (joinPieces rest).map (Char.ofNat (0x10000 + (high - 0xD800) * 0x400 + (low - 0xDC00)) :: ·)
      else none
    else if isLowSurrogate high then none
    else (joinPieces (.unit low :: rest)).map (Char.ofNat high :: ·)
  | .unit n :: rest =>
    if isHighSurrogate n || isLowSurrogate n then none
    else (joinPieces rest).map (Char.ofNat n :: ·)

/-- The token at the head of a text that starts with no blank. -/
def readToken : List Symbol → Option (Token × List Symbol)
  | .char '\x7b' :: rest => some (.openBrace, rest)
  | .char '\x7d' :: rest => some (.closeBrace, rest)
  | .char '[' :: rest => some (.openBracket, rest)
  | .char ']' :: rest => some (.closeBracket, rest)
  | .char ',' :: rest => some (.comma, rest)
  | .char ':' :: rest => some (.colon, rest)
  | .char '"' :: rest =>
    (readPieces rest).map fun (pieces, rest) =>
      (.string ((joinPieces pieces).map String.ofList), rest)
  | .char 'n' :: .char 'u' :: .char 'l' :: .char 'l' :: rest => some (.null, rest)
  | .char 't' :: .char 'r' :: .char 'u' :: .char 'e' :: rest => some (.bool true, rest)
  | .char 'f' :: .char 'a' :: .char 'l' :: .char 's' :: .char 'e' :: rest =>
    some (.bool false, rest)
  | text => (readNumber text).map fun (n, rest) => (.number n, rest)

/-- The blanks of JSON text. -/
def isBlank : Symbol → Bool
  | .char c => c = ' ' ∨ c = '\t' ∨ c = '\n' ∨ c = '\r'
  | .stray _ => false

/-- The tokens of a text; `room` bounds how many there can be. -/
def tokensFrom : Nat → List Symbol → Option (List Token)
  | 0, text => if text.dropWhile isBlank = [] then some [] else none
  | room + 1, text =>
    match text.dropWhile isBlank with
    | [] => some []
    | text => (readToken text).bind fun (token, rest) => (tokensFrom room rest).map (token :: ·)

/-- The tokens of a text. -/
def tokens (text : List Symbol) : Option (List Token) := tokensFrom text.length text

end Overseer.Json
