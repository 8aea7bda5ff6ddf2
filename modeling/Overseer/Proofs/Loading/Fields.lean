import Overseer.Config.Decode
import Overseer.Proofs.Reloading.Sections
import Overseer.Proofs.Toml.Kinds

/-!
The fields of a configuration.

Each section has its fields, each with its key and the kind of its values. A section in a table is
put together from what is found for each of its fields (`Config.Part.readsFields`), and a
configuration from what is found for each of its sections (`Config.assembles`); a field that is
missing, like a section that is missing, is as in the configuration underneath.
-/

namespace Overseer

open Toml (Value Entries Portion Assembles Reads reads_text reads_bool reads_below reads_list)

/-! ### Kinds of fields -/

/-- An auxiliary file from its fields: it has a name, and the other two may be missing. -/
structure AuxFile.Takes (entries : Entries) (aux : AuxFile) : Prop where
  name : ∃ v, ("name", v) ∈ entries ∧ v.IsText aux.name
  target : entries.Takes "target" (fun v x => ∃ text, v.IsText text ∧ x = some text) none aux.target
  overwrite : entries.Takes "overwrite" Value.IsBool false aux.overwrite

/-- An auxiliary file is given by a table of its fields, or by an array of them in their order. -/
inductive AuxFile.Given : Value → AuxFile → Prop where
  | table {origin : Toml.Origin} {entries : Entries} {aux : AuxFile}
    (takes : aux.Takes entries) : Given (.table origin entries) aux
  | array {grows : Bool} {items : List Value} {aux : AuxFile}
    (takes : aux.Takes (["name", "target", "overwrite"].zip items)) :
    Given (.array grows items) aux

theorem AuxFile.assembles {v : Value} {entries : Entries}
    (h : v.fields? ["name", "target", "overwrite"] = some entries) :
    Assembles [
      ⟨String, AuxFile.name, entries.required "name" Value.text?⟩,
      ⟨Option String, AuxFile.target, entries.optional "target" Value.text?⟩,
      ⟨Bool, AuxFile.overwrite, entries.field "overwrite" false Value.bool?⟩]
      (fun _ => True) (AuxFile.ofToml? v) := by
  simp only [ofToml?, h, Option.bind_eq_bind, Option.bind_some, Option.pure_def]
  refine .cons fun name => .cons fun target => .cons fun overwrite => .nil fun s => ?_
  obtain ⟨⟩ := s
  simp [and_assoc]

theorem AuxFile.ofToml?_eq_some_iff {v : Value} {entries : Entries} {aux : AuxFile}
    (h : v.fields? ["name", "target", "overwrite"] = some entries) (once : entries.Once) :
    AuxFile.ofToml? v = some aux ↔ aux.Takes entries := by
  simp only [(assembles h).given, List.forall_mem_cons, true_and,
    Entries.required_eq_some_iff once reads_text, Entries.optional_eq_some_iff once reads_text,
    Entries.field_eq_some_iff once reads_bool]
  constructor
  · rintro ⟨name, target, overwrite, -⟩
    exact ⟨name, target, overwrite⟩
  · rintro ⟨name, target, overwrite⟩
    exact ⟨name, target, overwrite, List.forall_mem_nil _⟩

theorem AuxFile.reads : Reads AuxFile.ofToml? AuxFile.Given := by
  intro v once aux
  cases v with
  | table origin entries =>
    rw [ofToml?_eq_some_iff rfl (Value.once_table_iff.mp once)]
    constructor
    · exact .table
    · intro h
      cases h with
      | table takes => exact takes
  | array grows items =>
    have hzip : Entries.Once (["name", "target", "overwrite"].zip items) :=
      Entries.once_zip (by decide) (Value.once_array_iff.mp once)
    rw [ofToml?_eq_some_iff rfl hzip]
    constructor
    · exact .array
    · intro h
      cases h with
      | array takes => exact takes
  | datetime =>
    rw [ofToml?_eq_some_iff rfl Entries.once_nil]
    constructor
    · rintro ⟨⟨v, hv, -⟩, -, -⟩
      cases hv
    · nofun
  | _ =>
    constructor
    · nofun
    · nofun

namespace Config

/-- A kind of values, with the reader that finds what they stand for. -/
structure Kind where
  type : Type
  holds : Value → type → Prop
  read : Value → Option type
  reads : Reads read holds

namespace Kind

def text : Kind := ⟨String, Value.IsText, Value.text?, reads_text⟩

theorem reads_path : Reads Path.ofToml? fun v p => v.IsText p.text := by
  intro v once p
  simp only [Path.ofToml?, Option.map_eq_some_iff, reads_text v once]
  constructor
  · rintro ⟨text, htext, rfl⟩
    exact htext
  · intro htext
    exact ⟨p.text, htext, rfl⟩

def path : Kind := ⟨Path, fun v p => v.IsText p.text, Path.ofToml?, reads_path⟩

def bool : Kind := ⟨Bool, Value.IsBool, Value.bool?, reads_bool⟩

def count : Kind := ⟨Nat, Value.IsBelow UInt32.size, Value.count?, reads_below _⟩

def millis : Kind := ⟨Nat, Value.IsBelow UInt64.size, Value.millis?, reads_below _⟩

def texts : Kind :=
  ⟨List String, Value.IsList Value.IsText, Value.list? Value.text?, reads_list reads_text⟩

def auxFiles : Kind :=
  ⟨List AuxFile, Value.IsList AuxFile.Given, Value.list? AuxFile.ofToml?, reads_list AuxFile.reads⟩

end Kind

/-- A field of a section. -/
structure Field (S : Type) where
  key : String
  kind : Kind
  get : S → kind.type

/-- What is found for a field among some entries. -/
def Field.portion {S : Type} (f : Field S) (entries : Entries) (base : S) : Portion S :=
  ⟨f.kind.type, f.get, entries.field f.key (f.get base) f.kind.read⟩

/-- A section in a table is put together from what is found for its fields. -/
def ReadsFields {S : Type} (read : S → Value → Option S) (fields : List (Field S)) : Prop :=
  ∀ base origin entries, Assembles (fields.map fun f => f.portion entries base) (fun _ => True)
    (read base (.table origin entries))

/-! ### The fields of each section -/

namespace Worker

def fields : List (Field Worker) := [
  ⟨"working_dir", .path, workingDir⟩,
  ⟨"asset_dir", .path, assetDir⟩,
  ⟨"binary_name", .text, binaryName⟩,
  ⟨"auth_file_name", .text, authFileName⟩,
  ⟨"socket_address", .text, socketAddress⟩,
  ⟨"launch_args", .texts, launchArgs⟩,
  ⟨"force_reinstall", .bool, forceReinstall⟩,
  ⟨"aux_files", .auxFiles, auxFiles⟩]

theorem readsFields : ReadsFields ofToml? fields := by
  intro base origin entries
  simp only [ofToml?, Value.fields?, Option.bind_eq_bind, Option.bind_some, Option.pure_def]
  refine .cons fun a => .cons fun b => .cons fun c => .cons fun d => .cons fun e => .cons fun f =>
    .cons fun g => .cons fun h => .nil fun s => ?_
  obtain ⟨⟩ := s
  simp only [true_and, and_assoc]
  exact (mk.injEq ..).symm.to_iff

end Worker

namespace Polling

def fields : List (Field Polling) := [
  ⟨"status_interval_ms", .millis, statusIntervalMs⟩,
  ⟨"screen_off_skip_threshold", .count, skipThreshold⟩,
  ⟨"notify_on_notices", .bool, notifyOnNotices⟩]

theorem readsFields : ReadsFields ofToml? fields := by
  intro base origin entries
  simp only [ofToml?, Value.fields?, Option.bind_eq_bind, Option.bind_some, Option.pure_def]
  refine .cons fun a => .cons fun b => .cons fun c => .nil fun s => ?_
  obtain ⟨⟩ := s
  simp only [true_and, and_assoc]
  exact (mk.injEq ..).symm.to_iff

end Polling

namespace Setup

def fields : List (Field Setup) := [
  ⟨"connect_retry_attempts", .count, connectAttempts⟩,
  ⟨"connect_retry_delay_ms", .millis, connectDelayMs⟩]

theorem readsFields : ReadsFields ofToml? fields := by
  intro base origin entries
  simp only [ofToml?, Value.fields?, Option.bind_eq_bind, Option.bind_some, Option.pure_def]
  refine .cons fun a => .cons fun b => .nil fun s => ?_
  obtain ⟨⟩ := s
  simp only [true_and]
  exact (mk.injEq ..).symm.to_iff

end Setup

namespace Shutdown

def fields : List (Field Shutdown) := [
  ⟨"graceful_check_attempts", .count, gracefulAttempts⟩,
  ⟨"graceful_check_rate_ms", .millis, gracefulRateMs⟩,
  ⟨"os_check_attempts", .count, signalAttempts⟩,
  ⟨"os_check_rate_ms", .millis, signalRateMs⟩]

theorem readsFields : ReadsFields ofToml? fields := by
  intro base origin entries
  simp only [ofToml?, Value.fields?, Option.bind_eq_bind, Option.bind_some, Option.pure_def]
  refine .cons fun a => .cons fun b => .cons fun c => .cons fun d => .nil fun s => ?_
  obtain ⟨⟩ := s
  simp only [true_and, and_assoc]
  exact (mk.injEq ..).symm.to_iff

end Shutdown

namespace Locks

def fields : List (Field Locks) := [
  ⟨"wake_lock_path", .path, wakeLock⟩,
  ⟨"wake_unlock_path", .path, wakeUnlock⟩,
  ⟨"tag", .text, tag⟩]

theorem readsFields : ReadsFields ofToml? fields := by
  intro base origin entries
  simp only [ofToml?, Value.fields?, Option.bind_eq_bind, Option.bind_some, Option.pure_def]
  refine .cons fun a => .cons fun b => .cons fun c => .nil fun s => ?_
  obtain ⟨⟩ := s
  simp only [true_and, and_assoc]
  exact (mk.injEq ..).symm.to_iff

end Locks

namespace Display

def fields : List (Field Display) := [
  ⟨"backlight_dir", .path, backlightDir⟩,
  ⟨"poll_interval_ms", .millis, pollIntervalMs⟩]

theorem readsFields : ReadsFields ofToml? fields := by
  intro base origin entries
  simp only [ofToml?, Value.fields?, Option.bind_eq_bind, Option.bind_some, Option.pure_def]
  refine .cons fun a => .cons fun b => .nil fun s => ?_
  obtain ⟨⟩ := s
  simp only [true_and]
  exact (mk.injEq ..).symm.to_iff

end Display

namespace Device

def fields : List (Field Device) := [
  ⟨"power_supply_dir", .path, powerSupplyDir⟩,
  ⟨"net_dir", .path, netDir⟩]

theorem readsFields : ReadsFields ofToml? fields := by
  intro base origin entries
  simp only [ofToml?, Value.fields?, Option.bind_eq_bind, Option.bind_some, Option.pure_def]
  refine .cons fun a => .cons fun b => .nil fun s => ?_
  obtain ⟨⟩ := s
  simp only [true_and]
  exact (mk.injEq ..).symm.to_iff

end Device

namespace Part

def Content : Part → Type
  | worker => Worker
  | polling => Polling
  | setup => Setup
  | shutdown => Shutdown
  | locks => Locks
  | display => Display
  | device => Device

def get : (part : Part) → Config → part.Content
  | worker => Config.worker
  | polling => Config.polling
  | setup => Config.setup
  | shutdown => Config.shutdown
  | locks => Config.locks
  | display => Config.display
  | device => Config.device

def fields : (part : Part) → List (Field part.Content)
  | worker => Worker.fields
  | polling => Polling.fields
  | setup => Setup.fields
  | shutdown => Shutdown.fields
  | locks => Locks.fields
  | display => Display.fields
  | device => Device.fields

def read : (part : Part) → part.Content → Value → Option part.Content
  | worker => Worker.ofToml?
  | polling => Polling.ofToml?
  | setup => Setup.ofToml?
  | shutdown => Shutdown.ofToml?
  | locks => Locks.ofToml?
  | display => Display.ofToml?
  | device => Device.ofToml?

theorem readsFields (part : Part) : ReadsFields part.read part.fields := by
  cases part with
  | worker => exact Worker.readsFields
  | polling => exact Polling.readsFields
  | setup => exact Setup.readsFields
  | shutdown => exact Shutdown.readsFields
  | locks => exact Locks.readsFields
  | display => exact Display.readsFields
  | device => exact Device.readsFields

/-- What is found for a section in a document. -/
def found (part : Part) (entries : Entries) (base : Config) : Option part.Content :=
  entries.field part.name (part.get base) (part.read (part.get base))

/-- The sections in the order in which they are read. -/
def all : List Part := [worker, polling, setup, shutdown, locks, display, device]

theorem mem_all (part : Part) : part ∈ all := by
  cases part <;> decide

end Part

/-- A configuration is put together from what is found for its sections. -/
theorem assembles (base : Config) (entries : Entries) :
    Assembles (Part.all.map fun part => ⟨part.Content, part.get, part.found entries base⟩)
      (fun _ => True) (ofToml? base entries) := by
  simp only [ofToml?, Option.bind_eq_bind, Option.pure_def]
  refine .cons fun a => .cons fun b => .cons fun c => .cons fun d => .cons fun e => .cons fun f =>
    .cons fun g => .nil fun s => ?_
  obtain ⟨⟩ := s
  simp only [true_and, and_assoc]
  exact (mk.injEq ..).symm.to_iff

end Config

end Overseer
