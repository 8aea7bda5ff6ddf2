import Overseer.Device.Status
import Overseer.Json.Record
import Overseer.Worker.Report

/-!
The JSON form of the reports.

Each type has a writer `toJson`, with the fields in declared order, and a reader `ofJson?`, in which
later fields have defaults.
-/

namespace Overseer

open Json (Value Record)

namespace SuspendReason

def toJson (r : SuspendReason) : Value := .integer r.code.toInt

def ofJson? (v : Value) : Option SuspendReason := v.int32?.map ofCode

end SuspendReason

namespace RunStatus

def toJson (s : RunStatus) : Value := .record [
  ("task_suspend_reason", s.taskSuspendReason.toJson),
  ("network_suspend_reason", s.networkSuspendReason.toJson),
  ("task_mode", .integer s.taskMode.toInt),
  ("network_mode", .integer s.networkMode.toInt)]

def ofJson? (v : Value) : Option RunStatus := do
  let r ← v.record? ["task_suspend_reason", "network_suspend_reason", "task_mode", "network_mode"]
  return {
    taskSuspendReason := ← r.required "task_suspend_reason" SuspendReason.ofJson?
    networkSuspendReason := ← r.required "network_suspend_reason" SuspendReason.ofJson?
    taskMode := ← r.defaulted "task_mode" 0 Value.int32?
    networkMode := ← r.defaulted "network_mode" 0 Value.int32? }

end RunStatus

namespace Task

def toJson (t : Task) : Value := .record [
  ("name", .text t.name),
  ("project_url", .text t.projectUrl),
  ("fraction_done", .real t.fractionDone),
  ("active_task", .bool t.active)]

def ofJson? (v : Value) : Option Task := do
  let r ← v.record? ["name", "project_url", "fraction_done", "active_task"]
  return {
    name := ← r.required "name" Value.text?
    projectUrl := ← r.required "project_url" Value.text?
    fractionDone := ← r.defaulted "fraction_done" 0.0 Value.float?
    active := ← r.defaulted "active_task" false Value.bool? }

end Task

namespace Project

def toJson (p : Project) : Value := .record [
  ("master_url", .text p.masterUrl),
  ("project_name", .text p.name),
  ("suspended_via_gui", .bool p.suspendedByUser)]

def ofJson? (v : Value) : Option Project := do
  let r ← v.record? ["master_url", "project_name", "suspended_via_gui"]
  return {
    masterUrl := ← r.required "master_url" Value.text?
    name := ← r.required "project_name" Value.text?
    suspendedByUser := ← r.defaulted "suspended_via_gui" false Value.bool? }

end Project

namespace Transfer

def toJson (t : Transfer) : Value := .record [
  ("name", .text t.name),
  ("project_url", .text t.projectUrl),
  ("is_upload", .bool t.isUpload),
  ("bytes_transferred", .natural t.bytesTransferred.toNat),
  ("total_bytes", .natural t.totalBytes.toNat)]

def ofJson? (v : Value) : Option Transfer := do
  let r ← v.record? ["name", "project_url", "is_upload", "bytes_transferred", "total_bytes"]
  return {
    name := ← r.required "name" Value.text?
    projectUrl := ← r.required "project_url" Value.text?
    isUpload := ← r.defaulted "is_upload" false Value.bool?
    bytesTransferred := ← r.defaulted "bytes_transferred" 0 Value.uint64?
    totalBytes := ← r.defaulted "total_bytes" 0 Value.uint64? }

end Transfer

namespace HostInfo

def toJson (h : HostInfo) : Value := .record [
  ("domain_name", .text h.domainName),
  ("os_name", .text h.osName),
  ("os_version", .text h.osVersion),
  ("product_name", .text h.productName),
  ("cpu_count", .natural h.cpuCount.toNat)]

def ofJson? (v : Value) : Option HostInfo := do
  let r ← v.record? ["domain_name", "os_name", "os_version", "product_name", "cpu_count"]
  return {
    domainName := ← r.required "domain_name" Value.text?
    osName := ← r.defaulted "os_name" "" Value.text?
    osVersion := ← r.defaulted "os_version" "" Value.text?
    productName := ← r.defaulted "product_name" "" Value.text?
    cpuCount := ← r.defaulted "cpu_count" 0 Value.uint32? }

end HostInfo

namespace StateReport

def toJson (s : StateReport) : Value := .record [
  ("results", .array (s.tasks.map Task.toJson)),
  ("projects", .array (s.projects.map Project.toJson)),
  ("host_info", .nullable HostInfo.toJson s.host)]

def ofJson? (v : Value) : Option StateReport := do
  let r ← v.record? ["results", "projects", "host_info"]
  return {
    tasks := ← r.defaulted "results" [] (Value.list? Task.ofJson?)
    projects := ← r.defaulted "projects" [] (Value.list? Project.ofJson?)
    host := ← r.defaulted "host_info" none (Record.orNull HostInfo.ofJson?) }

end StateReport

namespace AccountManager

def toJson (a : AccountManager) : Value := .record [
  ("name", .text a.name), ("url", .text a.url), ("present", .bool a.present)]

def ofJson? (v : Value) : Option AccountManager := do
  let r ← v.record? ["name", "url", "present"]
  return {
    name := ← r.defaulted "name" "" Value.text?
    url := ← r.defaulted "url" "" Value.text?
    present := ← r.defaulted "present" false Value.bool? }

end AccountManager

namespace Notice

def toJson (n : Notice) : Value := .record [
  ("seqno", .natural n.seqno.toNat),
  ("title", .text n.title),
  ("description", .text n.description),
  ("create_time", .real n.createTime),
  ("is_feed", .bool n.isFeed)]

def ofJson? (v : Value) : Option Notice := do
  let r ← v.record? ["seqno", "title", "description", "create_time", "is_feed"]
  return {
    seqno := ← r.required "seqno" Value.uint64?
    title := ← r.required "title" Value.text?
    description := ← r.defaulted "description" "" Value.text?
    createTime := ← r.defaulted "create_time" 0.0 Value.float?
    isFeed := ← r.defaulted "is_feed" false Value.bool? }

end Notice

namespace Preferences

def toJson (p : Preferences) : Value := .record [
  ("run_on_batteries", .bool p.runOnBatteries),
  ("run_if_user_active", .bool p.runIfUserActive),
  ("battery_charge_min_pct", .real p.batteryChargeMinPct),
  ("battery_max_temperature", .real p.batteryMaxTemperature),
  ("max_ncpus_pct", .real p.maxCpusPct),
  ("network_wifi_only", .bool p.networkWifiOnly)]

def ofJson? (v : Value) : Option Preferences := do
  let r ← v.record? ["run_on_batteries", "run_if_user_active", "battery_charge_min_pct",
    "battery_max_temperature", "max_ncpus_pct", "network_wifi_only"]
  return {
    runOnBatteries := ← r.defaulted "run_on_batteries" false Value.bool?
    runIfUserActive := ← r.defaulted "run_if_user_active" false Value.bool?
    batteryChargeMinPct := ← r.defaulted "battery_charge_min_pct" 0.0 Value.float?
    batteryMaxTemperature := ← r.defaulted "battery_max_temperature" 0.0 Value.float?
    maxCpusPct := ← r.defaulted "max_ncpus_pct" 0.0 Value.float?
    networkWifiOnly := ← r.defaulted "network_wifi_only" false Value.bool? }

end Preferences

namespace BatteryState

/-- The word for a battery state. -/
def word : BatteryState → String
  | unknown => "unknown"
  | charging => "charging"
  | discharging => "discharging"
  | notCharging => "not_charging"
  | full => "full"

def ofWord? : String → Option BatteryState
  | "unknown" => some unknown
  | "charging" => some charging
  | "discharging" => some discharging
  | "not_charging" => some notCharging
  | "full" => some full
  | _ => none

def toJson (b : BatteryState) : Value := .text b.word

/-- The word, or an object whose only member is the word with a null value; in a value that was kept
whole before it is read, an empty object does for null. -/
def ofJson? (kept : Bool) : Value → Option BatteryState
  | .string (some word) => ofWord? word
  | .object [(some word, .null)] => ofWord? word
  | .object [(some word, .object [])] => if kept then ofWord? word else none
  | _ => none

end BatteryState

namespace Power

def toJson (p : Power) : Value := .record [
  ("on_ac_power", .bool p.onAcPower),
  ("on_usb_power", .bool p.onUsbPower),
  ("battery_present", .bool p.batteryPresent),
  ("battery_charge_pct", .nullable .real p.batteryChargePct),
  ("battery_state", p.batteryState.toJson),
  ("battery_temperature_celsius", .nullable .real p.batteryTemperatureCelsius),
  ("wifi_online", .bool p.wifiOnline)]

def ofJson? (kept : Bool) (v : Value) : Option Power := do
  let r ← v.record? ["on_ac_power", "on_usb_power", "battery_present", "battery_charge_pct",
    "battery_state", "battery_temperature_celsius", "wifi_online"]
  return {
    onAcPower := ← r.required "on_ac_power" Value.bool?
    onUsbPower := ← r.required "on_usb_power" Value.bool?
    batteryPresent := ← r.required "battery_present" Value.bool?
    batteryChargePct := ← r.optional "battery_charge_pct" Value.float?
    batteryState := ← r.required "battery_state" (BatteryState.ofJson? kept)
    batteryTemperatureCelsius := ← r.optional "battery_temperature_celsius" Value.float?
    wifiOnline := ← r.required "wifi_online" Value.bool? }

end Power

namespace DeviceStatus

def toJson (d : DeviceStatus) : Value := .record [
  ("display_on", .bool d.displayOn),
  ("user_active", .bool d.userActive),
  ("power", d.power.toJson)]

def ofJson? (kept : Bool) (v : Value) : Option DeviceStatus := do
  let r ← v.record? ["display_on", "user_active", "power"]
  return {
    displayOn := ← r.required "display_on" Value.bool?
    userActive := ← r.required "user_active" Value.bool?
    power := ← r.required "power" (Power.ofJson? kept) }

end DeviceStatus

end Overseer
