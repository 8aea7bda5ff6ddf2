import Overseer.Decimal.Nearest
import Overseer.Device.Status
import Overseer.Files.Operation
import Overseer.Text.Blank

/-!
Reading the state of the device.

Each power supply is a directory of small attribute files, each network interface too. Attributes
that are missing or unreadable leave the fields they would fill at their defaults.
-/

namespace Overseer

/-- The state that a battery's status attribute names. -/
def BatteryState.ofStatus (raw : String) : BatteryState :=
  match Text.trim raw with
  | "Charging" => .charging
  | "Discharging" => .discharging
  | "Not charging" => .notCharging
  | "Full" => .full
  | _ => .unknown

/-- The attributes of a power supply, without blanks around them. -/
structure Supply where
  kind : Option String
  online : Option String
  present : Option String
  capacity : Option String
  status : Option String
  temperature : Option String
deriving DecidableEq, Repr

namespace Power

/-- Takes one supply into account. Any mains or USB supply that is online counts; a battery replaces
what an earlier one said, unless it is marked as absent. -/
def addSupply (power : Power) (supply : Supply) : Power :=
  match supply.kind with
  | some "Mains" => { power with onAcPower := power.onAcPower || supply.online == some "1" }
  | some "USB" => { power with onUsbPower := power.onUsbPower || supply.online == some "1" }
  | some "Battery" =>
    if supply.present = some "0" then power
    else
      { power with
        batteryPresent := true
        batteryChargePct := supply.capacity.bind Decimal.read
        batteryState := (supply.status.map BatteryState.ofStatus).getD .unknown
        -- The temperature is given in tenths of a degree.
        batteryTemperatureCelsius := (supply.temperature.bind Decimal.read).map (· / 10.0) }
  | _ => power

/-- The power fields after all supplies, in the order they were listed. -/
def ofSupplies (supplies : List Supply) : Power := supplies.foldl addSupply {}

end Power

namespace Device

/-- An attribute without blanks around it. -/
def readAttribute (dir : Path) (name : String) : Program Files (Option String) := do
  let reading ← Files.readText (dir.join name)
  return reading.toOption.map Text.trim

/-- The entries of a directory; none if it cannot be listed. -/
def entries (dir : Path) : Program Files (List Path) := do
  let listing ← Files.list dir
  return listing.toOption.getD []

def readSupply (dir : Path) : Program Files Supply := do
  let kind ← readAttribute dir "type"
  let online ← readAttribute dir "online"
  let present ← readAttribute dir "present"
  let capacity ← readAttribute dir "capacity"
  let status ← readAttribute dir "status"
  let temperature ← readAttribute dir "temp"
  return { kind, online, present, capacity, status, temperature }

/-- Whether an interface is wireless and up. -/
def isWirelessUp (dir : Path) : Program Files Bool := do
  let wireless ← Files.isDirectory (dir.join "wireless")
  let state ← readAttribute dir "operstate"
  return wireless && state == some "up"

/-- Reads power supplies and network interfaces. -/
def readPower (powerSupplyDir netDir : Path) : Program Files Power := do
  let supplies ← Program.each readSupply (← entries powerSupplyDir)
  let wireless ← Program.each isWirelessUp (← entries netDir)
  return { Power.ofSupplies supplies with wifiOnline := wireless.any id }

end Device

end Overseer
