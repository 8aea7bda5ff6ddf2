import Overseer.Toml.Document
import Overseer.Toml.Scalar

/-!
Reading TOML documents.

A document is a sequence of lines, each a header, a key with a value, or blank, with an optional
comment at its end. Arrays may go over several lines, inline tables may not.
-/

namespace Overseer.Toml

/-- Skips blanks, line breaks and comments between the items of an array; `room` bounds how many
comments there can be. A comment must end with its line. -/
def skipBetween : Nat → List Char → Option (List Char)
  | 0, _ => none
  | room + 1, text =>
    match skipBlank text with
    | '#' :: rest => (readNewline (rest.dropWhile isPlain)).bind (skipBetween room)
    | rest => some rest

/-- Adds the pairs of an inline table one after the other. -/
def insertPairs (t : Table) : List (List String × Value) → Option Table
  | [] => some t
  | (key, v) :: rest =>
    match key.getLast? with
    | some name => (t.insert true key.dropLast name v).bind (insertPairs · rest)
    | none => none

/-- The table that pairs between braces describe. -/
def inlineTable (pairs : List (List String × Value)) : Option Value :=
  (insertPairs ⟨⟨false, false, true⟩, []⟩ pairs).map Table.toValue

/-- A key with fewer parts than the limit. -/
def readLimitedKey (text : List Char) : Reading (List String) :=
  (readKey (text.length + 1) text).bind fun (key, rest) =>
    if key.length < nestingLimit then some (key, rest) else none

mutual

/-- A value, inside `depth` arrays and inline tables; `room` bounds the recursion. -/
def readValue : Nat → Nat → List Char → Reading Value
  | 0, _, _ => none
  | room + 1, depth, text =>
    match text with
    | '"' :: _ | '\'' :: _ =>
      (readString text).map fun (cs, rest) => (.string (String.ofList cs), rest)
    | '[' :: rest =>
      if depth + 1 < nestingLimit then
        (readItems room (depth + 1) rest).map fun (items, rest) => (.array false items, rest)
      else none
    | '\x7b' :: rest =>
      if depth + 1 < nestingLimit then
        match skipSpaces rest with
        | '\x7d' :: rest => (inlineTable []).map (·, rest)
        | rest =>
          (readPairs room (depth + 1) rest).bind fun (pairs, rest) =>
            (inlineTable pairs).map (·, rest)
      else none
    | 't' :: 'r' :: 'u' :: 'e' :: rest => some (.bool true, rest)
    | 'f' :: 'a' :: 'l' :: 's' :: 'e' :: rest => some (.bool false, rest)
    | text =>
      if startsDatetime text then (readDatetime text).map (.datetime, ·)
      else
        match readReal text with
        | some (x, rest) => some (.real x, rest)
        | none => (readInteger text).map fun (n, rest) => (.integer n, rest)

/-- The items of an array up to its closing bracket. -/
def readItems : Nat → Nat → List Char → Reading (List Value)
  | 0, _, _ => none
  | room + 1, depth, text =>
    (skipBetween (text.length + 1) text).bind fun text =>
      match text with
      | ']' :: rest => some ([], rest)
      | text =>
        (readValue room depth text).bind fun (v, rest) =>
          (skipBetween (rest.length + 1) rest).bind fun rest =>
            match rest with
            | ',' :: rest => (readItems room depth rest).map fun (vs, rest) => (v :: vs, rest)
            | ']' :: rest => some ([v], rest)
            | _ => none

/-- The pairs of an inline table up to its closing brace, at least one. -/
def readPairs : Nat → Nat → List Char → Reading (List (List String × Value))
  | 0, _, _ => none
  | room + 1, depth, text =>
    (readLimitedKey text).bind fun (key, rest) =>
      match rest with
      | '=' :: rest =>
        (readValue room depth (skipSpaces rest)).bind fun (v, rest) =>
          match skipSpaces rest with
          | ',' :: rest =>
            (readPairs room depth rest).map fun (pairs, rest) => ((key, v) :: pairs, rest)
          | '\x7d' :: rest => some ([(key, v)], rest)
          | _ => none
      | _ => none

end

/-- The rest after the end of a line: blanks, a comment, a line break or the end of the text. -/
def readLineEnd (text : List Char) : Option (List Char) :=
  match skipComment (skipSpaces text) with
  | [] => some []
  | rest => readNewline rest

/-- A header's path and name, and the rest after its closing brackets. -/
def readHeader (text : List Char) : Reading (List String × String) :=
  (readLimitedKey text).bind fun (key, rest) =>
    key.getLast?.map fun name => ((key.dropLast, name), rest)

/-- Takes one line of a document into account. -/
def readLine (d : Draft) (text : List Char) : Reading Draft :=
  match text with
  | '[' :: '[' :: rest =>
    (readHeader rest).bind fun ((path, name), rest) =>
      match rest with
      | ']' :: ']' :: rest =>
        (readLineEnd rest).bind fun rest => (d.openRepeated path name).map (·, rest)
      | _ => none
  | '[' :: rest =>
    (readHeader rest).bind fun ((path, name), rest) =>
      match rest with
      | ']' :: rest => (readLineEnd rest).bind fun rest => (d.openTable path name).map (·, rest)
      | _ => none
  | text =>
    match readLineEnd text with
    | some rest => some (d, rest)
    | none =>
      (readHeader text).bind fun ((path, name), rest) =>
        match rest with
        | '=' :: rest =>
          (readValue (2 * rest.length + 1) 0 (skipSpaces rest)).bind fun (v, rest) =>
            (readLineEnd rest).bind fun rest => (d.insert path name v).map (·, rest)
        | _ => none

/-- Takes all lines into account; `room` bounds their count. -/
def readLines : Nat → Draft → List Char → Option Table
  | 0, _, _ => none
  | room + 1, d, text =>
    match skipSpaces text with
    | [] => d.close
    | text => (readLine d text).bind fun (d, rest) => readLines room d rest

/-- A text without the mark that some editors put first. -/
def dropMark : List Char → List Char
  | '\ufeff' :: rest => rest
  | text => text

/-- The table that a document describes. -/
def read (text : String) : Option Table :=
  let chars := dropMark text.toList
  readLines (chars.length + 1) .start chars

end Overseer.Toml
