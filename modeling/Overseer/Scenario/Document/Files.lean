import Overseer.Bytes.Hex
import Overseer.Bytes.Sha256
import Overseer.Files.Tree
import Overseer.Json.Access

/-!
Files in scenario documents.

A scenario has a directory of its own, written `@` at the start of a path. The content of a file is
a text, hexadecimal digits, zeros or a repeated text, possibly with permission bits; a tree is an
object with a content for each path below that directory, and a change removes paths before it
writes a tree.
-/

namespace Overseer.Scenario

open Json (Value)

/-- The directory of a scenario. -/
def directory : Path := ⟨"/tmp/.tmpQ7xKd2"⟩

/-- A path, with the scenario's directory for `@` at its start. -/
def located (s : String) : Path :=
  ⟨if s.startsWith "@" then directory.text ++ (s.drop 1).toString else s⟩

/-- A text with the scenario's directory for every `@`. -/
def expanded (s : String) : String := s.replace "@" directory.text

/-- A text with `@` for the scenario's directory. -/
def abbreviated (s : String) : String := s.replace directory.text "@"

namespace Document

/-! ### Contents -/

/-- A number from octal digits. -/
def ofOctal (s : String) : Nat := s.toList.foldl (fun n c => 8 * n + (c.toNat - 48)) 0

def zeros (count : Nat) : ByteArray := ⟨Array.replicate count 0⟩

def repeated (s : String) (count : Nat) : ByteArray :=
  (List.replicate count s.toUTF8).foldl (· ++ ·) .empty

/-- The bytes of a content. -/
def bytes : Value → ByteArray
  | .string s => (s.getD "").toUTF8
  | v =>
    if v.has "hex" then (Bytes.ofHex? (v.textAt "hex")).getD .empty
    else if v.has "zeros" then zeros (v.natAt "zeros")
    else
      match v.listAt "repeat" with
      | [s, count] => repeated s.asText count.asNat
      | _ => (v.textAt "text").toUTF8

/-! ### Trees

What cannot be carried out, such as writing a file where a directory is, is a fault. -/

/-- Makes a directory with those above it. -/
def putDirectory (t : Tree) (path : Path) : Except IoFault Tree :=
  match Tree.createAlong path.ancestors t with
  | (.error fault, _) => .error fault
  | (.ok (), t) => .ok t

/-- Writes a file, with the directories above it. -/
def putFile (t : Tree) (path : Path) (content : ByteArray) : Except IoFault Tree := do
  let t ← putDirectory t (path.parent?.getD path)
  t.write path content

/-- Puts a content where a path leads. -/
def putContent (t : Tree) (path : Path) (v : Value) : Except IoFault Tree := do
  let t ← if v.boolAt "dir" then putDirectory t path else putFile t path (bytes v)
  match v.textAt? "mode" with
  | none => return t
  | some mode => t.setMode path (ofOctal mode)

/-- A tree with nothing but the scenario's directory. -/
def bareTree : Tree := (Tree.createAlong directory.ancestors .empty).2

/-- Writes the contents of an object, each at its path. -/
def writeTree (t : Tree) (v : Value) : Except IoFault Tree :=
  v.asMembers.foldlM (fun t (relative, content) => putContent t (directory.join relative) content) t

def tree (v : Value) : Except IoFault Tree := writeTree bareTree v

/-- A tree with at most one file, absent for null. -/
def singleFile (name : String) (content : Value) : Except IoFault Tree :=
  if content.isNull then .ok bareTree else putContent bareTree (directory.join name) content

/-- Removes what is at a path, with all that is below it. -/
def clear (t : Tree) (path : Path) : Tree :=
  match t.find path with
  | .ok found => t.erase found.place
  | .error _ => t

/-- Applies a change. -/
def change (v : Value) (t : Tree) : Except IoFault Tree :=
  writeTree ((v.listAt "rm").foldl (fun t relative => clear t (directory.join relative.asText)) t)
    (v.get "write")

/-! ### Showing a tree -/

/-- The length beyond which only a digest of a content is shown. -/
def shownLength : Nat := 200

/-- A content as a text, or as digits if it is none. -/
def ofBytes (content : ByteArray) : String × Value :=
  match String.fromUTF8? content with
  | some s => ("text", .text s)
  | none => ("hex", .text (Bytes.toHex content))

def ofNode : Node → Value
  | .directory mode _ => .record [("dir", .bool true), ofMode mode]
  | .file content mode =>
    if shownLength < content.size then
      .record [("len", .natural content.size),
        ("sha256", .text (Bytes.toHex (Bytes.Sha256.digest content))), ofMode mode]
    else .record [ofBytes content, ofMode mode]
where
  ofMode (mode : Nat) : String × Value := ("mode", .text (String.ofList (Nat.toDigits 8 mode)))

/-- All of a file, or each entry of a directory, can be looked at. -/
def isReadable (n : Node) : Bool := n.allows .read && (n.entries.isEmpty || n.allows .search)

/-- What is below the scenario's directory, if all of it can be read. -/
def ofTree (t : Tree) : Option Value :=
  match t.find directory with
  | .error _ => none
  | .ok found =>
    let below := found.node.descendants []
    if isReadable found.node && below.all fun (_, n) => isReadable n then
      some (.record (below.map fun (place, n) => ("/".intercalate place, ofNode n)))
    else none

end Document

end Overseer.Scenario
