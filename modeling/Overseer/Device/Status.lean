/-!
The state of the device, as it is reported to the worker.

The worker enforces its own preferences (suspend on battery, suspend while the user is active) but
cannot see most of this itself.
-/

namespace Overseer

inductive BatteryState where
  | unknown
  | charging
  | discharging
  | notCharging
  | full
deriving DecidableEq, Repr

/-- Power and connectivity. -/
structure Power where
  onAcPower : Bool := false
  onUsbPower : Bool := false
  batteryPresent : Bool := false
  batteryChargePct : Option Float := none
  batteryState : BatteryState := .unknown
  batteryTemperatureCelsius : Option Float := none
  wifiOnline : Bool := false
deriving BEq, Repr

/-- One report: built when it is due, sent once. -/
structure DeviceStatus where
  displayOn : Bool
  userActive : Bool
  power : Power
deriving BEq, Repr

/-- An active display is taken as an active user. -/
def DeviceStatus.of (displayOn : Bool) (power : Power) : DeviceStatus :=
  ⟨displayOn, displayOn, power⟩

end Overseer
