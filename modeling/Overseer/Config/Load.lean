import Overseer.Config.Decode
import Overseer.Files.Operation
import Overseer.Text.Quoted

/-!
Loading the configuration file.

Without a file the defaults are in effect. A file that cannot be read, is no valid document or names
a worker file by more than a plain name is refused as a whole.
-/

namespace Overseer

/-- Why a configuration file is refused. -/
inductive ConfigError where
  | unreadable
  | malformed
  | badName (bad : Config.BadName)
deriving DecidableEq, Repr

/-- The fault of a name. -/
def Config.BadName.message (bad : BadName) : String :=
  bad.field ++ " must be a plain file name, got " ++ Text.quoted bad.name

namespace Config

/-- The configuration that a text gives. -/
def ofText (text : String) : Except ConfigError Config :=
  match (Toml.read text).bind fun t => ofToml? {} t.entries with
  | none => .error .malformed
  | some config =>
    match config.badName? with
    | some bad => .error (.badName bad)
    | none => .ok config

theorem ofText_eq_ok_iff {text : String} {c : Config} :
    ofText text = .ok c ↔
      ((Toml.read text).bind fun t => ofToml? {} t.entries) = some c ∧ c.badName? = none := by
  unfold ofText
  cases (Toml.read text).bind fun t => ofToml? {} t.entries with
  | none => simp
  | some config =>
    cases hbad : config.badName? with
    | none =>
      simp only [hbad, Except.ok.injEq, Option.some.injEq]
      constructor
      · rintro rfl
        exact ⟨rfl, hbad⟩
      · exact And.left
    | some bad =>
      simp only [hbad, reduceCtorEq, Option.some.injEq, false_iff]
      rintro ⟨rfl, hgood⟩
      rw [hbad] at hgood
      cases hgood

/-- The configuration from what reading its file gave. -/
def ofReading : Except IoFault String → Except ConfigError Config
  | .ok text => ofText text
  | .error .notFound => .ok {}
  | .error _ => .error .unreadable

/-- Loads the configuration file. -/
def load (path : Path) : Program Files (Except ConfigError Config) := do
  let reading ← Files.readText path
  return ofReading reading

end Config

end Overseer
