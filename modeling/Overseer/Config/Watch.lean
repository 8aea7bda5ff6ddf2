import Overseer.Config.Load

/-!
Following changes of the configuration file.

Every notification that the file was made or written leads to a load. A failing load changes
nothing; an accepted configuration becomes the current one, and is announced when its polling
section differs from that of the one before. Other sections need a restart.
-/

namespace Overseer.Config

/-- What a file system notification reports. -/
inductive ChangeKind where
  | created
  | modified
  /-- Removal, access, or anything else. -/
  | unrelated
deriving DecidableEq, Repr

/-- The kind by the beginning of its name. -/
def ChangeKind.ofName (name : String) : ChangeKind :=
  if name.startsWith "create_" then .created
  else if name.startsWith "modify_" then .modified
  else .unrelated

/-- A notification that the file itself was made or written. Saving by renaming a new file over the
old one shows up as such on the directory. -/
def isWrite (kind : ChangeKind) (paths : List Path) (file : Path) : Bool :=
  kind ≠ .unrelated && paths.any (· == file)

/-- Takes a load into account: the configuration from then on, and the one to announce. -/
def follow (current : Config) : Except ConfigError Config → Config × Option Config
  | .error _ => (current, none)
  | .ok next => (next, if pollingChanged current next then some next else none)

end Overseer.Config
