import Overseer.Config.Basic
import Overseer.Toml.Field
import Overseer.Toml.Reader

/-!
The configuration in a TOML document.

A section is a table, in which unknown names are passed over and missing fields keep their defaults,
or an array of its fields in declared order. A field of the wrong kind or out of its range fails the
whole document.
-/

namespace Overseer

open Toml (Value Entries)

def Path.ofToml? (v : Value) : Option Path := v.text?.map Path.mk

/-- An auxiliary file must have a name. -/
def AuxFile.ofToml? (v : Value) : Option AuxFile := do
  let e ← v.fields? ["name", "target", "overwrite"]
  return {
    name := ← e.required "name" Value.text?
    target := ← e.optional "target" Value.text?
    overwrite := ← e.field "overwrite" false Value.bool? }

namespace Config

def Worker.ofToml? (base : Worker) (v : Value) : Option Worker := do
  let e ← v.fields? ["working_dir", "asset_dir", "binary_name", "auth_file_name", "socket_address",
    "launch_args", "force_reinstall", "aux_files"]
  return {
    workingDir := ← e.field "working_dir" base.workingDir Path.ofToml?
    assetDir := ← e.field "asset_dir" base.assetDir Path.ofToml?
    binaryName := ← e.field "binary_name" base.binaryName Value.text?
    authFileName := ← e.field "auth_file_name" base.authFileName Value.text?
    socketAddress := ← e.field "socket_address" base.socketAddress Value.text?
    launchArgs := ← e.field "launch_args" base.launchArgs (Value.list? Value.text?)
    forceReinstall := ← e.field "force_reinstall" base.forceReinstall Value.bool?
    auxFiles := ← e.field "aux_files" base.auxFiles (Value.list? AuxFile.ofToml?) }

def Polling.ofToml? (base : Polling) (v : Value) : Option Polling := do
  let e ← v.fields? ["status_interval_ms", "screen_off_skip_threshold", "notify_on_notices"]
  return {
    statusIntervalMs := ← e.field "status_interval_ms" base.statusIntervalMs Value.millis?
    skipThreshold := ← e.field "screen_off_skip_threshold" base.skipThreshold Value.count?
    notifyOnNotices := ← e.field "notify_on_notices" base.notifyOnNotices Value.bool? }

def Setup.ofToml? (base : Setup) (v : Value) : Option Setup := do
  let e ← v.fields? ["connect_retry_attempts", "connect_retry_delay_ms"]
  return {
    connectAttempts := ← e.field "connect_retry_attempts" base.connectAttempts Value.count?
    connectDelayMs := ← e.field "connect_retry_delay_ms" base.connectDelayMs Value.millis? }

def Shutdown.ofToml? (base : Shutdown) (v : Value) : Option Shutdown := do
  let e ← v.fields? ["graceful_check_attempts", "graceful_check_rate_ms", "os_check_attempts",
    "os_check_rate_ms"]
  return {
    gracefulAttempts := ← e.field "graceful_check_attempts" base.gracefulAttempts Value.count?
    gracefulRateMs := ← e.field "graceful_check_rate_ms" base.gracefulRateMs Value.millis?
    signalAttempts := ← e.field "os_check_attempts" base.signalAttempts Value.count?
    signalRateMs := ← e.field "os_check_rate_ms" base.signalRateMs Value.millis? }

def Locks.ofToml? (base : Locks) (v : Value) : Option Locks := do
  let e ← v.fields? ["wake_lock_path", "wake_unlock_path", "tag"]
  return {
    wakeLock := ← e.field "wake_lock_path" base.wakeLock Path.ofToml?
    wakeUnlock := ← e.field "wake_unlock_path" base.wakeUnlock Path.ofToml?
    tag := ← e.field "tag" base.tag Value.text? }

def Display.ofToml? (base : Display) (v : Value) : Option Display := do
  let e ← v.fields? ["backlight_dir", "poll_interval_ms"]
  return {
    backlightDir := ← e.field "backlight_dir" base.backlightDir Path.ofToml?
    pollIntervalMs := ← e.field "poll_interval_ms" base.pollIntervalMs Value.millis? }

def Device.ofToml? (base : Device) (v : Value) : Option Device := do
  let e ← v.fields? ["power_supply_dir", "net_dir"]
  return {
    powerSupplyDir := ← e.field "power_supply_dir" base.powerSupplyDir Path.ofToml?
    netDir := ← e.field "net_dir" base.netDir Path.ofToml? }

/-- The configuration that a document's entries give on top of another one. -/
def ofToml? (base : Config) (e : Entries) : Option Config := do
  return {
    worker := ← e.field "worker" base.worker (Worker.ofToml? base.worker)
    polling := ← e.field "polling" base.polling (Polling.ofToml? base.polling)
    setup := ← e.field "setup" base.setup (Setup.ofToml? base.setup)
    shutdown := ← e.field "shutdown" base.shutdown (Shutdown.ofToml? base.shutdown)
    locks := ← e.field "locks" base.locks (Locks.ofToml? base.locks)
    display := ← e.field "display" base.display (Display.ofToml? base.display)
    device := ← e.field "device" base.device (Device.ofToml? base.device) }

end Config

end Overseer
