import Overseer.Json.Access
import Overseer.Status.Snapshot
import Overseer.Wire.Report

/-!
What a worker reports, in scenario documents.

Notices may be given by their numbers alone, singly or as a range. Parts of a full read that are
left out are empty.
-/

namespace Overseer.Scenario.Document

open Json (Value)

/-- The notice of a number. -/
def numberedNotice (n : Nat) : Notice := ⟨UInt64.ofNat n, "notice " ++ toString n, "", 0.0, false⟩

/-- A list of notices: numbers, ranges of numbers, and notices in full. -/
def notices (v : Value) : List Notice :=
  v.asList.flatMap fun item =>
    match item, item.listAt "range" with
    | .number (.natural n), _ => [numberedNotice n]
    | _, [first, last] =>
      (List.range (last.asNat + 1 - first.asNat)).map fun i => numberedNotice (first.asNat + i)
    | _, _ => (Notice.ofJson? item).toList

def fullRead (v : Value) : FullRead where
  status := (RunStatus.ofJson? (v.get "status")).getD ⟨.notSuspended, .notSuspended, 0, 0⟩
  tasks := (v.listAt "tasks").filterMap Task.ofJson?
  projects := (v.listAt "projects").filterMap Project.ofJson?
  transfers := (v.listAt "transfers").filterMap Transfer.ofJson?
  host := (HostInfo.ofJson? (v.get "host_info")).getD ⟨"host", "", "", "", 0⟩
  accountManager := (AccountManager.ofJson? (v.get "acct_mgr_info")).getD ⟨"", "", false⟩
  notices := notices (v.get "notices")

/-- The change of the snapshot that a step makes, and how often. -/
def statusChange? (v : Value) : Option (StatusChange × Nat) :=
  match v.textAt "do" with
  | "publish" => some (.publish (fullRead (v.get "worker")) ⟨0⟩, 1)
  | "setup_status" =>
    some (.setup ((SetupStatus.ofWord? (v.textAt "status")).getD .launching), 1)
  | "preferences" => (Preferences.ofJson? (v.get "preferences")).map fun p => (.preferences p, 1)
  | "computing" => some (.computing (v.boolAt "computing"), 1)
  | "signal_notices" => some (.notices (v.natAt "count"), (v.natAt? "times").getD 1)
  | _ => none

/-- A snapshot, with the notices by number and title. -/
def ofSnapshot (s : Snapshot) : Value := .record [
  ("setup_status", .text s.setup.word), ("computing", .bool s.computing),
  ("updated", .bool s.updatedAt.isSome),
  ("preferences", .nullable Preferences.toJson s.preferences),
  ("worker", .nullable (fun r => .record [
    ("status", r.status.toJson), ("tasks", .array (r.tasks.map Task.toJson)),
    ("projects", .array (r.projects.map Project.toJson)),
    ("transfers", .array (r.transfers.map Transfer.toJson)), ("host_info", r.host.toJson),
    ("acct_mgr_info", r.accountManager.toJson),
    ("notices",
      .array (r.notices.map fun n => .array [.natural n.seqno.toNat, .text n.title])),
    ("latest_notice_seqno", .natural r.latestSeqno.toNat)]) s.worker)]

end Overseer.Scenario.Document
