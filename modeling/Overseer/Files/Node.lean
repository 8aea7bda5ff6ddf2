/-!
Files and directories.

A directory holds its entries under their names, in the order in which they were made. A place is
given by the names that lead to it from the top; `get?`, `put` and `erase` look at a place, fill it
and clear it. Of the permission bits those of the owner decide, because whoever acts owns all files.

Main statements: what was put in a directory is found there (`get?_put_self`), and all places that
are neither above nor below it stay as they were (`get?_put_of_not_prefix`).
-/

namespace Overseer

/-- A file or a directory, with its permission bits. There are no symbolic links, and no hard links
either: a file stands at one place only. -/
inductive Node where
  | file (content : ByteArray) (mode : Nat)
  | directory (mode : Nat) (entries : List (String × Node))

/-- The names from the top down. -/
@[reducible] def Place : Type := List String

/-- What permission bits allow the owner. -/
inductive Right where
  | read
  | write
  /-- To look a name up in a directory, or to run a file. -/
  | search
deriving DecidableEq, Repr

namespace Right

/-- The owner's bit for a right. -/
def bit : Right → Nat
  | read => 0o400
  | write => 0o200
  | search => 0o100

end Right

namespace Node

/-- The permission bits of a new file. -/
def fileMode : Nat := 0o644

/-- The permission bits of a new directory. -/
def directoryMode : Nat := 0o755

def isDirectory : Node → Bool
  | directory _ _ => true
  | file _ _ => false

def mode : Node → Nat
  | directory mode _ => mode
  | file _ mode => mode

def withMode (mode : Nat) : Node → Node
  | directory _ entries => directory mode entries
  | file content _ => file content mode

/-- The owner has a right. -/
def allows (n : Node) (right : Right) : Bool := n.mode &&& right.bit ≠ 0

/-- What a directory holds by name; a file holds nothing. -/
def entries : Node → List (String × Node)
  | directory _ entries => entries
  | file _ _ => []

/-! ### Bits that pass on -/

/-- The bit that makes a program run as the owner of its file. -/
def setOwner : Nat := 0o4000

/-- The bit that makes a program run as the group of its file, and that a directory hands down to
the directories in it. -/
def setGroup : Nat := 0o2000

/-- The bit that lets the group run a file. -/
def groupSearch : Nat := 0o010

/-- Permission bits without some of them. -/
def without (bits mode : Nat) : Nat := mode - (mode &&& bits)

/-- The permission bits of a file after its content was changed: it no longer runs as its owner,
nor as its group if the group may run it. -/
def modeAfterChange (mode : Nat) : Nat :=
  let mode := without setOwner mode
  if mode &&& groupSearch = 0 then mode else without setGroup mode

/-- A new directory inside another. -/
def newDirectoryIn (holder : Node) : Node :=
  .directory (directoryMode ||| (holder.mode &&& setGroup)) []

/-! ### Entries -/

/-- Replaces an entry where it stands, or adds it at the end. -/
def setEntry (name : String) (node : Node) : List (String × Node) → List (String × Node)
  | [] => [(name, node)]
  | entry :: rest =>
    if entry.1 = name then (name, node) :: rest else entry :: setEntry name node rest

/-- Leaves an entry out. -/
def dropEntry (name : String) (entries : List (String × Node)) : List (String × Node) :=
  entries.filter fun entry => entry.1 ≠ name

theorem lookup_setEntry_self (name : String) (node : Node) (entries : List (String × Node)) :
    (setEntry name node entries).lookup name = some node := by
  induction entries with
  | nil => simp [setEntry]
  | cons entry rest ih =>
    obtain ⟨key, old⟩ := entry
    simp only [setEntry]
    split
    · simp
    · rename_i h
      have h : (name == key) = false := by simpa using fun e => h e.symm
      simp only [List.lookup_cons, h, ih]

theorem lookup_setEntry_of_ne {name other : String} (h : other ≠ name) (node : Node)
    (entries : List (String × Node)) :
    (setEntry name node entries).lookup other = entries.lookup other := by
  have hne : (other == name) = false := by simpa using h
  induction entries with
  | nil => simp [setEntry, List.lookup_cons, hne]
  | cons entry rest ih =>
    obtain ⟨key, old⟩ := entry
    simp only [setEntry]
    split
    · rename_i he
      simp [List.lookup_cons, he, hne]
    · simp only [List.lookup_cons, ih]

/-! ### Places -/

/-- What is at a place. -/
def get? : Place → Node → Option Node
  | [], n => some n
  | name :: rest, n =>
    match n.entries.lookup name with
    | none => none
    | some child => child.get? rest

/-- Puts a node at a place that is there, or under a new name in a directory that is there. -/
def put (new : Node) : Place → Node → Node
  | [], _ => new
  | name :: rest, .directory mode entries =>
    match entries.lookup name, rest with
    | some child, _ => .directory mode (setEntry name (put new rest child) entries)
    | none, [] => .directory mode (setEntry name new entries)
    | none, _ :: _ => .directory mode entries
  | _ :: _, .file content mode => .file content mode

/-- What was put in a directory is found there. -/
theorem get?_put_self {top holder : Node} {place : Place} (new : Node)
    (h : get? place.dropLast top = some holder) (hd : holder.isDirectory) :
    get? place (put new place top) = some new := by
  induction place generalizing top with
  | nil => rfl
  | cons name rest ih =>
    cases top with
    | file content mode =>
      cases rest with
      | nil =>
        simp only [List.dropLast, get?, Option.some.injEq] at h
        subst h
        cases hd
      | cons next more => simp [List.dropLast, get?, entries] at h
    | directory mode es =>
      cases rest with
      | nil =>
        simp only [put]
        split <;> simp_all [get?, entries, lookup_setEntry_self, put]
      | cons next more =>
        simp only [List.dropLast, get?, entries] at h
        simp only [put]
        split
        · rename_i child hc
          simp only [hc] at h
          simpa only [get?, entries, lookup_setEntry_self] using ih h
        · simp_all
        · simp_all

/-- Putting a node somewhere changes nothing beside it. -/
theorem get?_put_of_not_prefix {top : Node} {place other : Place} (new : Node)
    (below : ¬ place <+: other) (above : ¬ other <+: place) :
    get? other (put new place top) = get? other top := by
  induction place generalizing top other with
  | nil => exact absurd List.nil_prefix below
  | cons name rest ih =>
    cases other with
    | nil => exact absurd List.nil_prefix above
    | cons first more =>
      cases top with
      | file content mode => rfl
      | directory mode es =>
        by_cases hf : first = name
        · subst hf
          have below : ¬ rest <+: more := by simpa [List.cons_prefix_cons] using below
          have above : ¬ more <+: rest := by simpa [List.cons_prefix_cons] using above
          cases hc : es.lookup first with
          | none =>
            cases rest with
            | nil => exact absurd List.nil_prefix below
            | cons next names => simp [put, hc]
          | some child =>
            simp only [put, hc, get?, entries, lookup_setEntry_self]
            exact ih below above
        · simp only [put]
          split <;> simp [get?, entries, lookup_setEntry_of_ne hf]

/-- Clears a place, with all that is below it. -/
def erase : Place → Node → Node
  | [], n => n
  | [name], .directory mode entries => .directory mode (dropEntry name entries)
  | name :: rest, .directory mode entries =>
    match entries.lookup name with
    | some child => .directory mode (setEntry name (erase rest child) entries)
    | none => .directory mode entries
  | _ :: _, .file content mode => .file content mode

mutual

/-- All that is below a node with its place, a directory before what it holds. -/
def descendants (place : Place) : Node → List (Place × Node)
  | .file _ _ => []
  | .directory _ entries => descendantsOf place entries

/-- The entries at a place with all that is below them. -/
def descendantsOf (place : Place) : List (String × Node) → List (Place × Node)
  | [] => []
  | (name, node) :: rest =>
    (place ++ [name], node) :: (descendants (place ++ [name]) node ++ descendantsOf place rest)

end

end Node

end Overseer
