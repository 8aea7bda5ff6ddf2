import Overseer.Files.Node
import Overseer.Files.Operation

/-!
Following paths.

A path is followed name by name from the top, which is also where a path begins that is not
absolute. Looking a name up takes a directory that may be searched; a dot stays where it is and two
dots lead back up. `Node.find` follows a path to what is there; `Node.slot` follows it up to its
last name, for whoever makes, replaces or removes an entry.
-/

namespace Overseer

/-- How many bytes a name has at most. -/
def maxNameLength : Nat := 255

/-- How many bytes a path has at most. -/
def maxPathLength : Nat := 4095

/-- The names that a path leads through, its last name, and whether a slash stands after it. -/
structure Route where
  through : List String
  last : String
  slash : Bool

namespace Route

/-- A NUL ends a text where paths are passed on, so that none can stand in one. -/
def hasNul (text : String) : Bool := text.toList.contains '\x00'

/-- The route of a path. A path with nothing but slashes leads to the top, as a dot does there. -/
def ofPath (path : Path) : Except IoFault Route :=
  if hasNul path.text then .error .invalidInput
  else if path.text = "" then .error .notFound
  else if maxPathLength < path.text.utf8ByteSize then .error .nameTooLong
  else
    let segments := Path.segments path.text
    let names := segments.filter (· ≠ "")
    .ok {
      through := names.dropLast
      last := names.getLast?.getD "."
      slash := segments.getLast? = some "" }

end Route

/-- A node that was reached, and the way to it, innermost first: each name with the directory it was
looked up in. -/
structure Reached where
  node : Node
  way : List (String × Node) := []

namespace Reached

/-- The place that was reached. -/
def place (r : Reached) : Place := (r.way.map (·.1)).reverse

/-- Names can be looked up here. -/
def enter (r : Reached) : Except IoFault Unit :=
  if !r.node.isDirectory then .error .notADirectory
  else if r.node.allows .search then .ok ()
  else .error .permissionDenied

/-- What a name stands for here; nothing if there is no such entry. -/
def entry? (r : Reached) (name : String) : Except IoFault (Option Reached) :=
  if name = "." then .ok (some r)
  else if name = ".." then
    match r.way with
    | [] => .ok (some r)
    | (_, holder) :: way => .ok (some ⟨holder, way⟩)
  else if maxNameLength < name.utf8ByteSize then .error .nameTooLong
  else .ok ((r.node.entries.lookup name).map fun node => ⟨node, (name, r.node) :: r.way⟩)

/-- Goes on by one name, which has to be there. -/
def step (r : Reached) (name : String) : Except IoFault Reached :=
  match r.enter, r.entry? name with
  | .error fault, _ => .error fault
  | .ok (), .error fault => .error fault
  | .ok (), .ok none => .error .notFound
  | .ok (), .ok (some r) => .ok r

/-- Goes on by names in turn. -/
def follow (r : Reached) : List String → Except IoFault Reached
  | [] => .ok r
  | name :: rest =>
    match r.step name with
    | .error fault => .error fault
    | .ok r => r.follow rest

end Reached

/-- An entry of a directory by its name, whether it is there or not. -/
structure Slot where
  holder : Reached
  name : String
  /-- A slash stands after the name. -/
  slash : Bool

namespace Slot

/-- Dots name the directory itself or the one above, not an entry. -/
def isDots (s : Slot) : Bool := s.name = "." || s.name = ".."

def place (s : Slot) : Place := s.holder.place ++ [s.name]

/-- What is there. -/
def node? (s : Slot) : Except IoFault (Option Node) :=
  match s.holder.entry? s.name with
  | .error fault => .error fault
  | .ok found => .ok (found.map (·.node))

/-- Entries can be made, replaced and removed beside this one. -/
def isOpen (s : Slot) : Bool := s.holder.node.allows .write

end Slot

namespace Node

/-- What a path leads to. A slash at its end asks for a directory. -/
def find (top : Node) (path : Path) : Except IoFault Reached := do
  let route ← Route.ofPath path
  let holder ← Reached.follow ⟨top, []⟩ route.through
  let found ← holder.step route.last
  if route.slash && !found.node.isDirectory then throw .notADirectory
  return found

/-- The entry that a path ends with. -/
def slot (top : Node) (path : Path) : Except IoFault Slot := do
  let route ← Route.ofPath path
  let holder ← Reached.follow ⟨top, []⟩ route.through
  holder.enter
  return ⟨holder, route.last, route.slash⟩

end Node

end Overseer
