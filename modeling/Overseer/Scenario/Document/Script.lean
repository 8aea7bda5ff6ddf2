import Overseer.Config.Decode
import Overseer.Poller
import Overseer.Scenario.Document.Files
import Overseer.Scenario.Document.Reports
import Overseer.Scenario.World

/-!
Scripts of a world in scenario documents.

A document gives the settings it wants to change, each by a name; the others stay as they are. A
configuration is given section by section, the worker's at first being one that lives in the
scenario's directory.
-/

namespace Overseer.Scenario.Document

open Json (Value)

/-! ### Configurations -/

mutual

/-- A configuration value; text that begins with `@` is a path in the scenario's directory. -/
def toToml : Value → Toml.Value
  | .bool b => .bool b
  | .string s => .string (located (s.getD "")).text
  | .number (.natural n) => .integer n
  | .number (.negative n) => .integer (-n)
  | .array items => .array false (itemsToToml items)
  | .object members => .table .explicit (membersToToml members)
  | _ => .integer 0
termination_by structural v => v

def itemsToToml : List Value → List Toml.Value
  | [] => []
  | v :: rest => toToml v :: itemsToToml rest
termination_by structural items => items

/-- Members that are null are left out. -/
def membersToToml : List (Option String × Value) → Toml.Entries
  | [] => []
  | m :: rest => memberToToml m ++ membersToToml rest
termination_by structural members => members

def memberToToml : Option String × Value → Toml.Entries
  | (_, .null) => []
  | (name, v) => [(name.getD "", toToml v)]
termination_by structural m => m

end

/-- The entries of a table. -/
def entries (v : Value) : Toml.Entries :=
  match toToml v with
  | .table _ entries => entries
  | _ => []

def polling (v : Value) : Config.Polling :=
  (Config.Polling.ofToml? {} (.table .explicit (entries v))).getD {}

def auxFiles (v : Value) : List AuxFile := v.asList.filterMap fun a => AuxFile.ofToml? (toToml a)

/-- The configuration of a worker that lives in the scenario's directory. -/
def localConfig : Config where
  worker := {
    workingDir := directory.join "client"
    assetDir := directory.join "assets"
    binaryName := "worker"
    auxFiles := [] }

def config (v : Value) : Config := (Config.ofToml? localConfig (entries v)).getD localConfig

/-! ### Scripts -/

/-- A worker with one task, to begin with. -/
def sampleWorker : Worker where
  status := some ⟨.notSuspended, .notSuspended, 2, 2⟩
  state := some {
    tasks := [⟨"wu_1234_0", "https://project.example/", 0.25, true⟩]
    projects := [⟨"https://project.example/", "Example", false⟩]
    host := some ⟨"phone", "Android", "14", "Pixel", 8⟩ }
  preferences := some ⟨false, false, 90.0, 40.0, 100.0, true⟩

def callFault (s : String) : CallFault :=
  match s with
  | "unexpected" => .unexpected
  | "timeout" => .timeout
  | "too_large" => .tooLarge
  | message => .rejected message

def stopSignal (name : String) : StopSignal := if name = "Kill" then .kill else .quit

def lockCalls (v : Value) : List LockCall := v.asTexts.filterMap LockCall.ofName?

/-- Changes one setting of the worker. -/
def setWorker (k : Worker) (v : Value) : String → Worker
  | "reachable" => { k with reachable := v.asBool }
  | "open_failures" => { k with openFailures := v.asNat }
  | "auth_ok" => { k with acceptsToken := v.asBool }
  | "connected" => { k with connected := v.asBool }
  | "status" => { k with status := RunStatus.ofJson? v }
  | "state" => { k with state := StateReport.ofJson? v }
  | "transfers" => { k with transfers := Value.list? Transfer.ofJson? v }
  | "acct_mgr" => { k with accountManager := AccountManager.ofJson? v }
  | "prefs" => { k with preferences := Preferences.ofJson? v }
  | "notices" => { k with notices := notices v }
  | "notices_unfiltered" => { k with unfiltered := v.asBool }
  | "quit_exits" => { k with quitListings := v.given Value.asNat }
  | "errors" => { k with faults := v.asMembers.map fun (call, e) => (call, callFault e.asText) }
  | "die_on" => { k with dieOn := v.given Value.asText }
  | "delays" => { k with delays := v.asMembers.map fun (call, delay) => (call, delay.asNat) }
  | _ => k

/-- The rows of a process table. -/
def rows (v : Value) : List (UInt32 × String) :=
  v.asList.filterMap fun row =>
    match row.asList with
    | [pid, name] => some (UInt32.ofNat pid.asNat, (located name.asText).text)
    | _ => none

/-- Changes one setting. -/
def setOne (s : Script) (v : Value) : String → Script
  | "procs" => { s with roster := s.roster.withRows (rows v) }
  | "listing" => { s with listing := v.given fun v => expanded v.asText }
  | "listing_fail" => { s with listingFails := v.asBool }
  | "launch_fail" => { s with launchFails := v.asBool }
  | "launch_invisible" => { s with launchesInvisible := v.asBool }
  | "signal_exits" =>
    { s with signalListings := v.asMembers.map fun (name, n) => (stopSignal name, n.asNat) }
  | "signal_fail" => { s with signalFails := v.asBool }
  | "lock_fail" => { s with lockFailures := lockCalls v }
  | name => { s with worker := setWorker s.worker v name }

/-- Changes the settings that a document gives. -/
def set (v : Value) (s : Script) : Script :=
  v.asMembers.foldl (fun s (name, v) => setOne s v name) s

/-! ### Supervisors -/

/-- The poller of a scenario. -/
def poller (v : Value) : Poller :=
  .ofConfig (config (v.get "config")) (.ofArch ((v.textAt? "arch").getD "x86_64")) ⟨"Pixel 8", "14"⟩
    (((v.get "display_on").given Value.asBool).getD true)

/-- The world of a scenario, with the files it begins with. -/
def world (v : Value) (tree : Tree) : World where
  script := set (v.get "world") { worker := sampleWorker }
  tree

def command? (v : Value) : Option Command :=
  match v.textAt "cmd" with
  | "force" => some .forceRefresh
  | "display" => some (.displayChanged (v.boolAt "on"))
  | "reconfigure" => some (.reconfigure (polling (v.get "polling")))
  | "shutdown" => some .shutdown
  | _ => none

end Overseer.Scenario.Document
