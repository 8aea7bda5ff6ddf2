/-!
Why a worker is not computing, or not transferring.

The worker reports a numeric code. Codes without a name are kept as they are, so that `code` gives
every code back (`code_ofCode`).
-/

namespace Overseer

inductive SuspendReason where
  | notSuspended
  | batteries
  | userActive
  | userRequest
  | timeOfDay
  | benchmarks
  | diskSize
  | cpuThrottle
  | noRecentInput
  | initialDelay
  | exclusiveAppRunning
  | cpuUsage
  | networkQuotaExceeded
  | os
  | wifiState
  | batteryCharging
  | batteryOverheated
  | noGuiKeepalive
  /-- A code without a name. -/
  | other (code : Int32)
deriving DecidableEq, Repr

namespace SuspendReason

/-- The reason that a code stands for. -/
def ofCode (code : Int32) : SuspendReason :=
  match code.toInt with
  | 0 => notSuspended
  | 1 => batteries
  | 2 => userActive
  | 4 => userRequest
  | 8 => timeOfDay
  | 16 => benchmarks
  | 32 => diskSize
  | 64 => cpuThrottle
  | 128 => noRecentInput
  | 256 => initialDelay
  | 512 => exclusiveAppRunning
  | 1024 => cpuUsage
  | 2048 => networkQuotaExceeded
  | 4096 => os
  | 4097 => wifiState
  | 4098 => batteryCharging
  | 4099 => batteryOverheated
  | 4100 => noGuiKeepalive
  | _ => other code

/-- The code of a reason. -/
def code : SuspendReason → Int32
  | notSuspended => 0
  | batteries => 1
  | userActive => 2
  | userRequest => 4
  | timeOfDay => 8
  | benchmarks => 16
  | diskSize => 32
  | cpuThrottle => 64
  | noRecentInput => 128
  | initialDelay => 256
  | exclusiveAppRunning => 512
  | cpuUsage => 1024
  | networkQuotaExceeded => 2048
  | os => 4096
  | wifiState => 4097
  | batteryCharging => 4098
  | batteryOverheated => 4099
  | noGuiKeepalive => 4100
  | other code => code

theorem code_ofCode (c : Int32) : (ofCode c).code = c := by
  unfold ofCode
  split <;> first | rfl | (rename_i h; exact (Int32.toInt_inj.1 h).symm)

/-- The name of a reason. -/
def name : SuspendReason → String
  | notSuspended => "NotSuspended"
  | batteries => "Batteries"
  | userActive => "UserActive"
  | userRequest => "UserRequest"
  | timeOfDay => "TimeOfDay"
  | benchmarks => "Benchmarks"
  | diskSize => "DiskSize"
  | cpuThrottle => "CpuThrottle"
  | noRecentInput => "NoRecentInput"
  | initialDelay => "InitialDelay"
  | exclusiveAppRunning => "ExclusiveAppRunning"
  | cpuUsage => "CpuUsage"
  | networkQuotaExceeded => "NetworkQuotaExceeded"
  | os => "Os"
  | wifiState => "WifiState"
  | batteryCharging => "BatteryCharging"
  | batteryOverheated => "BatteryOverheated"
  | noGuiKeepalive => "NoGuiKeepalive"
  | other code => "Other(" ++ toString code.toInt ++ ")"

/-- Whether the worker counts as computing. A throttled worker still runs its tasks, only at a
reduced duty cycle. -/
def computing : SuspendReason → Bool
  | notSuspended => true
  | cpuThrottle => true
  | _ => false

end SuspendReason

end Overseer
