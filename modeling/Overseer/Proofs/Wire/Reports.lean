import Overseer.Proofs.Json.Records
import Overseer.Wire.Report

/-!
Reports that are read as they were written.

A report can be sent when the reals in it are read back from their own text and its reasons are ones
that some code stands for; nothing is asked of its texts, counts, modes and lists. What is written
for such a report spells it (`Json.Spells`), whichever of its optional parts are there.
-/

namespace Overseer

open Json (Value Record Spells ReadsBack)

/-! ### Reports without loss -/

/-- A reason that some code stands for. -/
def SuspendReason.Coded (r : SuspendReason) : Prop := ∃ c, r = ofCode c

structure RunStatus.Sendable (s : RunStatus) : Prop where
  task : s.taskSuspendReason.Coded
  network : s.networkSuspendReason.Coded

def Task.Sendable (t : Task) : Prop := ReadsBack t.fractionDone

def StateReport.Sendable (s : StateReport) : Prop := ∀ t ∈ s.tasks, t.Sendable

def Notice.Sendable (n : Notice) : Prop := ReadsBack n.createTime

structure Preferences.Sendable (p : Preferences) : Prop where
  charge : ReadsBack p.batteryChargeMinPct
  temperature : ReadsBack p.batteryMaxTemperature
  cpus : ReadsBack p.maxCpusPct

structure Power.Sendable (p : Power) : Prop where
  charge : ∀ x ∈ p.batteryChargePct, ReadsBack x
  temperature : ∀ x ∈ p.batteryTemperatureCelsius, ReadsBack x

def DeviceStatus.Sendable (d : DeviceStatus) : Prop := d.power.Sendable

/-! ### What is written for them -/

theorem SuspendReason.spells {r : SuspendReason} (h : r.Coded) :
    Spells SuspendReason.ofJson? 0 r.toJson r := by
  obtain ⟨c, rfl⟩ := h
  constructor
  · exact .int32 _
  · simp [SuspendReason.ofJson?, SuspendReason.toJson, code_ofCode]

theorem RunStatus.spells {s : RunStatus} (h : s.Sendable) :
    Spells RunStatus.ofJson? 1 s.toJson s := by
  have htask := SuspendReason.spells h.task
  have hnetwork := SuspendReason.spells h.network
  apply Spells.record
  · rfl
  · rfl
  · simp [htask.toFits, hnetwork.toFits]
  · simp [Record.required, Record.defaulted, htask.read_eq,
      hnetwork.read_eq]

theorem Task.spells {t : Task} (h : t.Sendable) : Spells Task.ofJson? 1 t.toJson t := by
  have hfraction := Spells.real h
  apply Spells.record
  · rfl
  · rfl
  · simp [hfraction.toFits]
  · simp [Record.required, Record.defaulted, hfraction.read_eq]

theorem Project.spells (p : Project) : Spells Project.ofJson? 1 p.toJson p := by
  apply Spells.record
  · rfl
  · rfl
  · simp
  · simp [Record.required, Record.defaulted]

theorem Transfer.spells (t : Transfer) : Spells Transfer.ofJson? 1 t.toJson t := by
  apply Spells.record
  · rfl
  · rfl
  · simp
  · simp [Record.required, Record.defaulted]

theorem HostInfo.spells (h : HostInfo) : Spells HostInfo.ofJson? 1 h.toJson h := by
  apply Spells.record
  · rfl
  · rfl
  · simp
  · simp [Record.required, Record.defaulted]

theorem StateReport.spells {s : StateReport} (h : s.Sendable) :
    Spells StateReport.ofJson? 3 s.toJson s := by
  have htasks := Spells.list fun t ht => Task.spells (h t ht)
  have hprojects := Spells.list fun p (_ : p ∈ s.projects) => p.spells
  have hhost := (Spells.orNull (fun host (_ : host ∈ s.host) => host.spells) rfl).mono
    (Nat.le_succ 1)
  apply Spells.record
  · rfl
  · rfl
  · simp [htasks.toFits, hprojects.toFits, hhost.toFits]
  · simp [Record.defaulted, htasks.read_eq, hprojects.read_eq,
      hhost.read_eq]

theorem AccountManager.spells (a : AccountManager) :
    Spells AccountManager.ofJson? 1 a.toJson a := by
  apply Spells.record
  · rfl
  · rfl
  · simp
  · simp [Record.defaulted]

theorem Notice.spells {n : Notice} (h : n.Sendable) : Spells Notice.ofJson? 1 n.toJson n := by
  have htime := Spells.real h
  apply Spells.record
  · rfl
  · rfl
  · simp [htime.toFits]
  · simp [Record.required, Record.defaulted, htime.read_eq]

theorem Preferences.spells {p : Preferences} (h : p.Sendable) :
    Spells Preferences.ofJson? 1 p.toJson p := by
  have hcharge := Spells.real h.charge
  have htemperature := Spells.real h.temperature
  have hcpus := Spells.real h.cpus
  apply Spells.record
  · rfl
  · rfl
  · simp [hcharge.toFits, htemperature.toFits, hcpus.toFits]
  · simp [Record.defaulted, hcharge.read_eq, htemperature.read_eq,
      hcpus.read_eq]

theorem BatteryState.spells (kept : Bool) (b : BatteryState) :
    Spells (BatteryState.ofJson? kept) 0 b.toJson b := by
  constructor
  · exact .text _
  · cases b <;> rfl

theorem Power.spells (kept : Bool) {p : Power} (h : p.Sendable) :
    Spells (Power.ofJson? kept) 1 p.toJson p := by
  have hstate := BatteryState.spells kept p.batteryState
  have hcharge := Spells.orNull (fun x hx => Spells.real (h.charge x hx)) rfl
  have htemperature := Spells.orNull (fun x hx => Spells.real (h.temperature x hx)) rfl
  apply Spells.record
  · rfl
  · rfl
  · simp [hstate.toFits, hcharge.toFits, htemperature.toFits]
  · simp [Record.required, Record.optional, hstate.read_eq,
      hcharge.read_eq, htemperature.read_eq]

theorem DeviceStatus.spells (kept : Bool) {d : DeviceStatus} (h : d.Sendable) :
    Spells (DeviceStatus.ofJson? kept) 2 d.toJson d := by
  have hpower := Power.spells kept h
  apply Spells.record
  · rfl
  · rfl
  · simp [hpower.toFits]
  · simp [Record.required, hpower.read_eq]

end Overseer
