import Overseer.Text.Split

/-!
File paths.

A path is kept as the text it was given, and is compared by its components: repeated slashes, inner
dots and trailing slashes make no difference. `join` works on the text, so a joined path shows the
spelling of its parts.
-/

namespace Overseer

structure Path where
  text : String
deriving Repr

/-- A component of a path. A dot counts only at the very beginning of a relative path. -/
inductive Component where
  | root
  | current
  | parent
  | normal (name : String)
deriving DecidableEq, Repr

namespace Path

/-- The parts of a text between slashes. -/
def segments (text : String) : List String :=
  (Text.pieces (· == '/') text.toList).map String.ofList

/-- The component of a segment after the first; nothing for an empty one or a dot. -/
def componentOf (segment : String) : Option Component :=
  if segment = "" ∨ segment = "." then none
  else if segment = ".." then some .parent
  else some (.normal segment)

/-- Starts at the root. -/
def isAbsolute (p : Path) : Bool := p.text.toList.head? == some '/'

/-- The components of a path, in order. -/
def components (p : Path) : List Component :=
  match segments p.text with
  | [] => []
  | first :: rest =>
    let start : List Component :=
      if p.isAbsolute then [.root]
      else if first = "." then [.current]
      else (componentOf first).toList
    start ++ rest.filterMap componentOf

instance : BEq Path := ⟨fun a b => a.components == b.components⟩

/-- One path below another; an absolute path replaces what stands before it. -/
def join (base : Path) (name : String) : Path :=
  if isAbsolute ⟨name⟩ then ⟨name⟩
  else
    match base.text.toList.getLast? with
    | none => ⟨name⟩
    | some last => if last = '/' then ⟨base.text ++ name⟩ else ⟨base.text ++ "/" ++ name⟩

/-- A name that is one ordinary component: it cannot lead out of the directory it is joined to. -/
def isPlainName (name : String) : Bool :=
  match components ⟨name⟩ with
  | [.normal _] => true
  | _ => false

/-- The last component, if it is an ordinary name. -/
def fileName? (p : Path) : Option String :=
  match p.components.getLast? with
  | some (.normal name) => some name
  | _ => none

/-- Takes segments without meaning off the end. -/
def trimSegments (segments : List String) : List String :=
  (segments.reverse.dropWhile fun s => s = "" ∨ s = ".").reverse

/-- The path without its last component; `none` for the root and for the empty path. -/
def parent? (p : Path) : Option Path :=
  match segments p.text with
  | [] => none
  | first :: rest =>
    match trimSegments rest with
    | [] => if first = "" then none else some ⟨""⟩
    | kept =>
      match first, trimSegments kept.dropLast with
      | "", [] => some ⟨"/"⟩
      | first, rest => some ⟨"/".intercalate (first :: rest)⟩

/-- The paths above one that starts with `first` and goes on with segments, innermost first; the
empty path is not among them. -/
def pathsAbove (first : String) : List String → List Path
  | [] => []
  | segment :: rest =>
    if segment = "" ∨ segment = "." then pathsAbove first rest
    else
      let above := trimSegments rest.reverse
      let text := if first = "" ∧ above = [] then "/" else "/".intercalate (first :: above)
      ⟨text⟩ :: pathsAbove first rest

/-- The path and those above it, innermost first, without the empty one. -/
def ancestors (p : Path) : List Path :=
  match segments p.text with
  | [] => []
  | first :: rest => if p.text = "" then [] else p :: pathsAbove first rest.reverse

/-- The path with another last component. -/
def withFileName (p : Path) (name : String) : Path :=
  match p.fileName?, p.parent? with
  | some _, some parent => parent.join name
  | _, _ => p.join name

end Path

end Overseer
