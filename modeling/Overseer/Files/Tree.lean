import Overseer.Files.Lookup

/-!
A file system in memory.

`Tree.perform` carries out every file operation on a tree of nodes. An operation that fails changes
nothing, except that the making of nested directories keeps those it has made.
-/

namespace Overseer

/-- A file system: the directory at its top. It has neither symbolic nor hard links, so that each
place is reached from above on one way and no change of it is a change of another. -/
structure Tree where
  top : Node

namespace Tree

def empty : Tree := ⟨.directory Node.directoryMode []⟩

/-- What is at a place. -/
def get? (t : Tree) (place : Place) : Option Node := t.top.get? place

/-- The tree with a node at a place. -/
def put (t : Tree) (place : Place) (node : Node) : Tree := ⟨Node.put node place t.top⟩

/-- The tree without what is at a place. -/
def erase (t : Tree) (place : Place) : Tree := ⟨t.top.erase place⟩

/-- What a path leads to. -/
def find (t : Tree) (path : Path) : Except IoFault Reached := t.top.find path

/-- A fault unless a right is there. -/
def demand (allowed : Bool) : Except IoFault Unit :=
  if allowed then .ok () else .error .permissionDenied

/-! ### Reading -/

def isPresent (t : Tree) (path : Path) : Bool := (t.find path).isOk

def isDirectory (t : Tree) (path : Path) : Bool :=
  match t.find path with
  | .ok found => found.node.isDirectory
  | .error _ => false

def readBytes (t : Tree) (path : Path) : Except IoFault ByteArray := do
  let found ← t.find path
  demand (found.node.allows .read)
  match found.node with
  | .directory _ _ => throw .isADirectory
  | .file content _ => return content

def readText (t : Tree) (path : Path) : Except IoFault String := do
  let content ← t.readBytes path
  match String.fromUTF8? content with
  | some text => return text
  | none => throw .invalidData

def list (t : Tree) (path : Path) : Except IoFault (List Path) := do
  let found ← t.find path
  match found.node with
  | .file _ _ => throw .notADirectory
  | .directory _ entries =>
    demand (found.node.allows .read)
    return entries.map fun entry => path.join entry.1

/-! ### Changing -/

/-- Where content for a path goes, and the permission bits it gets there: those of the file that it
replaces, which has to grant some rights, or else `mode`. -/
def target (t : Tree) (path : Path) (rights : List Right) (mode : Nat) :
    Except IoFault (Place × Nat) := do
  let slot ← t.top.slot path
  if slot.isDots || slot.slash then throw .isADirectory
  match ← slot.node? with
  | some (.directory _ _) => throw .isADirectory
  | some (.file content mode) =>
    demand (rights.all (Node.file content mode).allows)
    return (slot.place, Node.modeAfterChange mode)
  | none =>
    demand slot.isOpen
    return (slot.place, mode)

/-- Replaces the content of a file, or makes a file. -/
def write (t : Tree) (path : Path) (content : ByteArray) : Except IoFault Tree := do
  let (place, mode) ← t.target path [.write] Node.fileMode
  return t.put place (.file content mode)

/-- Makes sure that a file can be read and written. -/
def openForUpdate (t : Tree) (path : Path) : Except IoFault Tree := do
  let (place, mode) ← t.target path [.read, .write] Node.fileMode
  if (t.get? place).isSome then return t else return t.put place (.file .empty mode)

/-- Empties a file. -/
def truncate (t : Tree) (path : Path) : Except IoFault Tree := do
  let (place, mode) ← t.target path [.write] Node.fileMode
  if (t.get? place).isSome then return t.put place (.file .empty mode) else throw .notFound

/-- Writes after the content of a file. -/
def append (t : Tree) (path : Path) (more : ByteArray) : Except IoFault Tree := do
  let (place, mode) ← t.target path [.write] Node.fileMode
  match t.get? place with
  | some (.file content _) => return t.put place (.file (content ++ more) mode)
  | _ => throw .notFound

/-- Copies a file; what is no file cannot be copied. The target is emptied and given its permission
bits before content comes to it, so that nothing is left of a file that is copied onto itself. -/
def copy (t : Tree) (source path : Path) : Except IoFault Tree := do
  let found ← t.find source
  demand (found.node.allows .read)
  match found.node with
  | .directory _ _ => throw .invalidInput
  | .file content mode =>
    let (place, _) ← t.target path [.write] mode
    let content := if place = found.place then .empty else content
    let mode := if content.isEmpty then mode else Node.modeAfterChange mode
    return t.put place (.file content mode)

def setMode (t : Tree) (path : Path) (mode : Nat) : Except IoFault Tree := do
  let found ← t.find path
  return t.put found.place (found.node.withMode mode)

/-- Moves a file to a new name or over another file. Dots name a directory that is in use, and a
slash stands only after the name of a directory. -/
def rename (t : Tree) (source path : Path) : Except IoFault Tree := do
  let origin ← t.top.slot source
  let goal ← t.top.slot path
  if origin.isDots || goal.isDots then throw .resourceBusy
  match ← origin.node? with
  | none => throw .notFound
  | some (.directory _ _) => throw .other
  | some (.file content mode) =>
    let replaced ← goal.node?
    if origin.slash || goal.slash then throw .notADirectory
    if origin.place = goal.place then return t
    demand (origin.isOpen && goal.isOpen)
    if (replaced.map Node.isDirectory).getD false then throw .isADirectory
    return (t.erase origin.place).put goal.place (.file content mode)

/-- Removes a file. -/
def remove (t : Tree) (path : Path) : Except IoFault Tree := do
  let slot ← t.top.slot path
  if slot.isDots then throw .isADirectory
  match ← slot.node? with
  | none => throw .notFound
  | some node =>
    if slot.slash && !node.isDirectory then throw .notADirectory
    if !slot.slash then demand slot.isOpen
    if node.isDirectory then throw .isADirectory
    return t.erase slot.place

/-- Makes one directory. -/
def makeDirectory (t : Tree) (path : Path) : Except IoFault Tree := do
  let slot ← t.top.slot path
  if slot.isDots then throw .alreadyExists
  match ← slot.node? with
  | some _ => throw .alreadyExists
  | none =>
    demand slot.isOpen
    return t.put slot.place slot.holder.node.newDirectoryIn

/-- Makes a directory, unless it is one already. -/
def ensureDirectory (t : Tree) (path : Path) : Except IoFault Tree :=
  match t.makeDirectory path with
  | .ok t => .ok t
  | .error fault => if t.isDirectory path then .ok t else .error fault

/-- Makes the first of some directories, each below the next. Only where the directory above is
missing is that one made first; what was made stays. -/
def createAlong : List Path → Tree → Except IoFault Unit × Tree
  | [], t => (.ok (), t)
  | path :: above, t =>
    match t.ensureDirectory path with
    | .ok t => (.ok (), t)
    | .error .notFound =>
      match createAlong above t with
      | (.error fault, t) => (.error fault, t)
      | (.ok (), t) =>
        match t.ensureDirectory path with
        | .ok t => (.ok (), t)
        | .error fault => (.error fault, t)
    | .error fault => (.error fault, t)

/-! ### Operations -/

/-- The outcome of a change: on a fault the tree stays as it was. -/
def outcome (t : Tree) : Except IoFault Tree → Except IoFault Unit × Tree
  | .error fault => (.error fault, t)
  | .ok t => (.ok (), t)

/-- Carries out a file operation. -/
def perform (t : Tree) : (op : FileOp) → op.Answer × Tree
  | .readText path => (t.readText path, t)
  | .readBytes path => (t.readBytes path, t)
  | .isPresent path => (t.isPresent path, t)
  | .isDirectory path => (t.isDirectory path, t)
  | .list path => (t.list path, t)
  | .createDirectories path => createAlong path.ancestors t
  | .mode path => ((t.find path).map (·.node.mode), t)
  | .setMode path mode => t.outcome (t.setMode path mode)
  | .copy source path => t.outcome (t.copy source path)
  | .rename source path => t.outcome (t.rename source path)
  | .remove path => t.outcome (t.remove path)
  | .write path content => t.outcome (t.write path content)
  | .openForUpdate path => t.outcome (t.openForUpdate path)
  | .truncate path => t.outcome (t.truncate path)
  | .append path more => t.outcome (t.append path more)

/-- Runs a program over files on a tree. -/
def run {α : Type} (p : Program Files α) (t : Tree) : α × Tree :=
  Id.run (StateT.run (p.interpret fun op => (fun t => pure (t.perform op) : StateT Tree Id _)) t)

@[simp] theorem run_done {α : Type} (a : α) (t : Tree) :
    run (.done a : Program Files α) t = (a, t) := rfl

theorem run_bind {α β : Type} (p : Program Files α) (f : α → Program Files β) (t : Tree) :
    run (p >>= f) t = run (f (run p t).1) (run p t).2 := by
  unfold run
  rw [Program.interpret_bind]
  rfl

/-- What only looks at each of some things shows them all as they are. -/
theorem run_each {α β : Type} {f : α → Program Files β} {g : α → β} {t : Tree}
    (h : ∀ a, run (f a) t = (g a, t)) (l : List α) :
    run (Program.each f l) t = (l.map g, t) := by
  induction l with
  | nil => rfl
  | cons a rest ih => simp [Program.each, run_bind, h, ih]

end Tree

end Overseer
