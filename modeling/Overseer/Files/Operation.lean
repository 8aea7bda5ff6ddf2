import Overseer.Path
import Overseer.Program

/-!
What can be asked of a file system.

Every operation that can fail answers with the kind of its fault. A program over `Files` leaves open
what holds the files.
-/

namespace Overseer

/-- The kinds of input and output faults. -/
inductive IoFault where
  | notFound
  | notADirectory
  | isADirectory
  | alreadyExists
  | directoryNotEmpty
  | invalidInput
  | invalidData
  | unexpectedEof
  | brokenPipe
  | connectionRefused
  | permissionDenied
  | resourceBusy
  | nameTooLong
  | other
deriving DecidableEq, Repr

/-- The name of a fault. -/
def IoFault.name : IoFault → String
  | notFound => "NotFound"
  | notADirectory => "NotADirectory"
  | isADirectory => "IsADirectory"
  | alreadyExists => "AlreadyExists"
  | directoryNotEmpty => "DirectoryNotEmpty"
  | invalidInput => "InvalidInput"
  | invalidData => "InvalidData"
  | unexpectedEof => "UnexpectedEof"
  | brokenPipe => "BrokenPipe"
  | connectionRefused => "ConnectionRefused"
  | permissionDenied => "PermissionDenied"
  | resourceBusy => "ResourceBusy"
  | nameTooLong => "InvalidFilename"
  | other => "Other"

inductive FileOp where
  /-- The content of a file, which must be UTF-8. -/
  | readText (path : Path)
  | readBytes (path : Path)
  | isPresent (path : Path)
  | isDirectory (path : Path)
  /-- The paths of a directory's entries. -/
  | list (path : Path)
  /-- Makes a directory and those above it, as far as they are missing. -/
  | createDirectories (path : Path)
  /-- The permission bits. -/
  | mode (path : Path)
  | setMode (path : Path) (mode : Nat)
  /-- Copies content and permission bits. -/
  | copy (source target : Path)
  /-- Puts a file in the place of another in one step. -/
  | rename (source target : Path)
  | remove (path : Path)
  /-- Replaces the content of a file, making the file if there is none. -/
  | write (path : Path) (content : ByteArray)
  /-- Makes sure that a file can be read and written, making an empty one if there is none. -/
  | openForUpdate (path : Path)
  /-- Empties a file that is there. -/
  | truncate (path : Path)
  /-- Writes after the content of a file that is there. -/
  | append (path : Path) (more : ByteArray)

namespace FileOp

@[reducible] def Answer : FileOp → Type
  | readText _ => Except IoFault String
  | readBytes _ => Except IoFault ByteArray
  | isPresent _ => Bool
  | isDirectory _ => Bool
  | list _ => Except IoFault (List Path)
  | mode _ => Except IoFault Nat
  | _ => Except IoFault Unit

end FileOp

/-- A file system. -/
@[reducible] def Files : Interface := ⟨FileOp, FileOp.Answer⟩

/-! ### Programs over files

Each name asks one question. -/

namespace Files

def readText (path : Path) : Program Files (Except IoFault String) :=
  Program.call (I := Files) (.readText path)

def readBytes (path : Path) : Program Files (Except IoFault ByteArray) :=
  Program.call (I := Files) (.readBytes path)

def isPresent (path : Path) : Program Files Bool := Program.call (I := Files) (.isPresent path)

def isDirectory (path : Path) : Program Files Bool := Program.call (I := Files) (.isDirectory path)

def list (path : Path) : Program Files (Except IoFault (List Path)) :=
  Program.call (I := Files) (.list path)

def createDirectories (path : Path) : Program Files (Except IoFault Unit) :=
  Program.call (I := Files) (.createDirectories path)

def mode (path : Path) : Program Files (Except IoFault Nat) :=
  Program.call (I := Files) (.mode path)

def setMode (path : Path) (mode : Nat) : Program Files (Except IoFault Unit) :=
  Program.call (I := Files) (.setMode path mode)

def copy (source target : Path) : Program Files (Except IoFault Unit) :=
  Program.call (I := Files) (.copy source target)

def rename (source target : Path) : Program Files (Except IoFault Unit) :=
  Program.call (I := Files) (.rename source target)

def remove (path : Path) : Program Files (Except IoFault Unit) :=
  Program.call (I := Files) (.remove path)

def write (path : Path) (content : ByteArray) : Program Files (Except IoFault Unit) :=
  Program.call (I := Files) (.write path content)

end Files

end Overseer
