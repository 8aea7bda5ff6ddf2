import Overseer.Bytes.Sha256
import Overseer.Config.Basic
import Overseer.Files.Operation
import Overseer.Platform

/-!
Installing the worker.

The binary for the processor family and the auxiliary files are copied from the asset directory to
the working directory of the worker. The binary is current when its SHA-256 equals that of the
bundled one. Every copy goes to a temporary sibling first and is renamed into place, so that a fault
on the way leaves an existing file as it was.
-/

namespace Overseer

structure Installer where
  installDir : Path
  assetDir : Path
  binaryName : String
  platform : Platform
  auxFiles : List AuxFile

/-- Why an installation failed. -/
inductive InstallError where
  | createDir (path : Path) (fault : IoFault)
  | copy (source target : Path) (fault : IoFault)
deriving Repr

/-- The text of a failure, around the text of the fault behind it. -/
def InstallError.message (faultText : String) : InstallError → String
  | createDir path _ =>
    "failed to create install directory " ++ path.text ++ ": " ++ faultText
  | copy source target _ =>
    "failed to install " ++ target.text ++ " from " ++ source.text ++ ": " ++ faultText

/-- The name of a failure's kind. -/
def InstallError.kind : InstallError → String
  | createDir _ _ => "CreateDir"
  | copy _ _ _ => "Copy"

/-- The fault behind a failure. -/
def InstallError.fault : InstallError → IoFault
  | createDir _ fault => fault
  | copy _ _ fault => fault

/-- The SHA-256 of a file's content. -/
def hashFile (path : Path) : Program Files (Except IoFault ByteArray) := do
  let content ← Files.readBytes path
  return content.map Bytes.Sha256.digest

namespace Installer

/-- The installer for a worker's configuration on a processor family. -/
def ofConfig (worker : Config.Worker) (platform : Platform) : Installer where
  installDir := worker.workingDir
  assetDir := worker.assetDir
  binaryName := worker.binaryName
  platform := platform
  auxFiles := worker.auxFiles

/-- The bundled binary. -/
def source (i : Installer) : Path := (i.assetDir.join i.platform.assetDir).join i.binaryName

/-- The installed binary. -/
def installed (i : Installer) : Path := i.installDir.join i.binaryName

/-- The permission bits of the installed binary. -/
def executableMode : Nat := 0o755

/-- The hash of the bundled binary, if it can be read. -/
def expectedHash (i : Installer) : Program Files (Option ByteArray) := do
  let hash ← hashFile i.source
  return hash.toOption

/-- The installed binary is the bundled one. A file that cannot be read never is. -/
def isCurrent (i : Installer) : Program Files Bool := do
  match ← i.expectedHash with
  | none => return false
  | some expected =>
    match ← hashFile i.installed with
    | .ok installed => return installed == expected
    | .error _ => return false

/-- The temporary sibling that a file is copied to. -/
def partialPath (target : Path) : Path :=
  target.withFileName ("." ++ target.fileName?.getD "" ++ ".partial")

/-- Fills the temporary sibling and renames it into place. -/
def fillAndRename (source target : Path) (executable : Bool) :
    Program Files (Except IoFault Unit) := do
  match ← Files.copy source (partialPath target) with
  | .error fault => return .error fault
  | .ok () =>
    if executable then
      match ← Files.setMode (partialPath target) executableMode with
      | .error fault => return .error fault
      | .ok () => Files.rename (partialPath target) target
    else Files.rename (partialPath target) target

/-- Copies a file in one step, as seen at the target. After a fault the temporary sibling is
removed. -/
def copyAtomic (source target : Path) (executable : Bool) :
    Program Files (Except InstallError Unit) := do
  match ← fillAndRename source target executable with
  | .ok () => return .ok ()
  | .error fault =>
    let _ ← Files.remove (partialPath target)
    return .error (.copy source target fault)

/-- The permission bit that lets the owner write. -/
def ownerWrite : Nat := 0o200

/-- All permission bits of the owner. -/
def ownerAll : Nat := 0o700

/-- Makes the install directory if there is none, and lets its owner write to it. -/
def prepareDir (i : Installer) : Program Files (Except InstallError Unit) := do
  let dir := i.installDir
  let fail (fault : IoFault) : Except InstallError Unit := .error (.createDir dir fault)
  let made ← if ← Files.isPresent dir then pure (.ok ()) else Files.createDirectories dir
  match made with
  | .error fault => return fail fault
  | .ok () =>
    match ← Files.mode dir with
    | .error fault => return fail fault
    | .ok mode =>
      if mode &&& ownerWrite = 0 then
        match ← Files.setMode dir (mode ||| ownerAll) with
        | .error fault => return fail fault
        | .ok () => return .ok ()
      else return .ok ()

/-- Installs auxiliary files in order, up to the first fault. One that is there stays as it is
unless it may be replaced. -/
def installAux (i : Installer) : List AuxFile → Program Files (Except InstallError Unit)
  | [] => return .ok ()
  | aux :: rest => do
    let target := i.installDir.join aux.targetName
    let kept ← if aux.overwrite then pure false else Files.isPresent target
    if kept then i.installAux rest
    else
      match ← copyAtomic (i.assetDir.join aux.name) target false with
      | .error e => return .error e
      | .ok () => i.installAux rest

/-- Installs the binary and then the auxiliary files. -/
def install (i : Installer) : Program Files (Except InstallError Unit) := do
  match ← i.prepareDir with
  | .error e => return .error e
  | .ok () =>
    match ← copyAtomic i.source i.installed true with
    | .error e => return .error e
    | .ok () => i.installAux i.auxFiles

/-- Installs unless the installed binary is current and no reinstallation is asked for. False when a
step failed; the worker must not be launched then. -/
def ensureInstalled (i : Installer) (force : Bool) : Program Files Bool := do
  let current ← if force then pure false else i.isCurrent
  if current then return true
  else
    match ← i.install with
    | .ok () => return true
    | .error _ => return false

end Installer

end Overseer
