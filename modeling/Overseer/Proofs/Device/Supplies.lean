import Mathlib.Data.List.Induction
import Overseer.Device.Reading
import Overseer.Files.Tree

/-!
What a reading of the power supplies tells.

The mains and USB supplies of a listing are counted together, whichever comes first, but of the
batteries only the last one that is present tells its charge, state and temperature
(`Power.ofSupplies_eq`). So the order of the listing never decides over the rest of a reading, and
it decides over the battery exactly when two present batteries tell different things
(`power_order_free_iff`).
-/

namespace Overseer

/-! ### What a supply tells -/

/-- What a battery tells of itself. -/
structure BatteryReading where
  chargePct : Option Float
  state : BatteryState
  temperatureCelsius : Option Float

namespace Supply

/-- A battery that is not marked as absent. -/
def IsBattery (s : Supply) : Prop := s.kind = some "Battery" ∧ s.present ≠ some "0"

instance (s : Supply) : Decidable s.IsBattery := inferInstanceAs (Decidable (_ ∧ _))

/-- A supply of a kind that is online. -/
def feeds (kind : String) (s : Supply) : Bool := s.kind = some kind && s.online == some "1"

def battery (s : Supply) : BatteryReading where
  chargePct := s.capacity.bind Decimal.read
  state := (s.status.map BatteryState.ofStatus).getD .unknown
  temperatureCelsius := (s.temperature.bind Decimal.read).map (· / 10.0)

end Supply

namespace Power

/-- The power fields once a battery has told of itself. -/
def withBattery (p : Power) (b : BatteryReading) : Power :=
  { p with
    batteryPresent := true
    batteryChargePct := b.chargePct
    batteryState := b.state
    batteryTemperatureCelsius := b.temperatureCelsius }

/-- The power fields with further mains and USB supplies. -/
def fedBy (p : Power) (mains usb : Bool) : Power :=
  { p with onAcPower := p.onAcPower || mains, onUsbPower := p.onUsbPower || usb }

/-- A supply either is a present battery, or it may feed the device. -/
theorem addSupply_eq (p : Power) (s : Supply) :
    p.addSupply s =
      if s.IsBattery then p.withBattery s.battery
      else p.fedBy (s.feeds "Mains") (s.feeds "USB") := by
  obtain ⟨kind, online, present, capacity, status, temperature⟩ := s
  unfold addSupply
  split
  · rename_i hkind
    obtain rfl : kind = some "Mains" := hkind
    simp [Supply.IsBattery, Supply.feeds, fedBy]
  · rename_i hkind
    obtain rfl : kind = some "USB" := hkind
    simp [Supply.IsBattery, Supply.feeds, fedBy]
  · rename_i hkind
    obtain rfl : kind = some "Battery" := hkind
    by_cases habsent : present = some "0"
    · simp [Supply.IsBattery, Supply.feeds, fedBy, habsent]
    · simp [Supply.IsBattery, withBattery, Supply.battery, habsent]
  · rename_i hmains husb hbattery
    have hkind : kind ≠ some "Mains" ∧ kind ≠ some "USB" ∧ kind ≠ some "Battery" :=
      ⟨hmains, husb, hbattery⟩
    simp [Supply.IsBattery, Supply.feeds, fedBy, hkind]

/-- The last present battery of a listing. -/
def lastBattery? (supplies : List Supply) : Option Supply :=
  (supplies.filter fun s => s.IsBattery).getLast?

/-- The power fields without any battery. -/
def fed (supplies : List Supply) : Power :=
  fedBy {} (supplies.any (Supply.feeds "Mains")) (supplies.any (Supply.feeds "USB"))

/-- Everything that feeds the device counts, and of the batteries the last. -/
theorem ofSupplies_eq (supplies : List Supply) :
    ofSupplies supplies =
      match lastBattery? supplies with
      | none => fed supplies
      | some s => (fed supplies).withBattery s.battery := by
  induction supplies using List.reverseRecOn with
  | nil => rfl
  | append_singleton earlier s ih =>
    have hstep : ofSupplies (earlier ++ [s]) = (ofSupplies earlier).addSupply s := by
      rw [ofSupplies, List.foldl_append]
      rfl
    rw [hstep, ih, addSupply_eq]
    by_cases hbattery : s.IsBattery
    · have hfeeds : s.feeds "Mains" = false ∧ s.feeds "USB" = false := by
        simp [Supply.feeds, hbattery.1]
      have hlast : lastBattery? (earlier ++ [s]) = some s := by simp [lastBattery?, hbattery]
      have hfed : fed (earlier ++ [s]) = fed earlier := by simp [fed, hfeeds]
      rw [if_pos hbattery, hlast, hfed]
      cases lastBattery? earlier with
      | none => rfl
      | some s' => rfl
    · have hlast : lastBattery? (earlier ++ [s]) = lastBattery? earlier := by
        simp [lastBattery?, hbattery]
      rw [if_neg hbattery, hlast]
      cases lastBattery? earlier with
      | none => simp [fed, fedBy]
      | some s' => simp [fed, fedBy, withBattery]

/-- All batteries of a listing that are present tell the same. -/
def Concordant (supplies : List Supply) : Prop :=
  ∀ s ∈ supplies, ∀ s' ∈ supplies, s.IsBattery → s'.IsBattery → s.battery = s'.battery

/-- Two readings agree in all that is not told by a battery. -/
structure SameFeeds (p p' : Power) : Prop where
  onAcPower : p'.onAcPower = p.onAcPower
  onUsbPower : p'.onUsbPower = p.onUsbPower
  batteryPresent : p'.batteryPresent = p.batteryPresent
  wifiOnline : p'.wifiOnline = p.wifiOnline

variable {supplies supplies' : List Supply}

theorem fed_perm (h : supplies'.Perm supplies) : fed supplies' = fed supplies := by
  have hany : ∀ kind, supplies'.any (Supply.feeds kind) = supplies.any (Supply.feeds kind) := by
    intro kind
    rw [Bool.eq_iff_iff, List.any_eq_true, List.any_eq_true]
    simp only [h.mem_iff]
  rw [fed, hany, hany, fed]

theorem lastBattery?_mem {s : Supply} (h : lastBattery? supplies = some s) :
    s ∈ supplies ∧ s.IsBattery := by
  have hmem := List.mem_filter.mp (List.mem_of_getLast? h)
  exact ⟨hmem.1, of_decide_eq_true hmem.2⟩

theorem lastBattery?_eq_none_iff :
    lastBattery? supplies = none ↔ ∀ s ∈ supplies, ¬s.IsBattery := by
  simp [lastBattery?]

/-- A battery that is listed last is the last battery. -/
theorem lastBattery?_concat {s : Supply} (h : s.IsBattery) :
    lastBattery? (supplies ++ [s]) = some s := by
  simp [lastBattery?, h]

/-- Another order may bring another battery to the end of a listing, and nothing else. -/
theorem ofSupplies_perm (h : supplies'.Perm supplies) :
    ofSupplies supplies' = ofSupplies supplies ∨
      ∃ s s', lastBattery? supplies = some s ∧ lastBattery? supplies' = some s' ∧
        ofSupplies supplies = (fed supplies).withBattery s.battery ∧
        ofSupplies supplies' = (fed supplies).withBattery s'.battery := by
  have hnone : lastBattery? supplies' = none ↔ lastBattery? supplies = none := by
    simp only [lastBattery?_eq_none_iff, h.mem_iff]
  rw [ofSupplies_eq, ofSupplies_eq, fed_perm h]
  cases hlast : lastBattery? supplies with
  | none =>
    rw [hnone.mpr hlast]
    exact .inl rfl
  | some s =>
    cases hlast' : lastBattery? supplies' with
    | none => cases hlast.symm.trans (hnone.mp hlast')
    | some s' => exact .inr ⟨s, s', rfl, rfl, rfl, rfl⟩

theorem sameFeeds_perm (h : supplies'.Perm supplies) :
    (ofSupplies supplies).SameFeeds (ofSupplies supplies') := by
  rcases ofSupplies_perm h with hsame | ⟨s, s', -, -, hlast, hlast'⟩
  · rw [hsame]
    exact ⟨rfl, rfl, rfl, rfl⟩
  · rw [hlast, hlast']
    exact ⟨rfl, rfl, rfl, rfl⟩

theorem Concordant.ofSupplies_perm (hconcordant : Concordant supplies)
    (h : supplies'.Perm supplies) : ofSupplies supplies' = ofSupplies supplies := by
  rcases Power.ofSupplies_perm h with hsame | ⟨s, s', hs, hs', hlast, hlast'⟩
  · exact hsame
  · obtain ⟨hmem, hbattery⟩ := lastBattery?_mem hs
    obtain ⟨hmem', hbattery'⟩ := lastBattery?_mem hs'
    rw [hlast, hlast', hconcordant s' (h.mem_iff.mp hmem') s hmem hbattery' hbattery]

/-- What a reading tells of the battery. -/
def battery (p : Power) : BatteryReading :=
  ⟨p.batteryChargePct, p.batteryState, p.batteryTemperatureCelsius⟩

theorem ofSupplies_battery {s : Supply} (hlast : lastBattery? supplies = some s) :
    (ofSupplies supplies).battery = s.battery := by
  rw [ofSupplies_eq, hlast]
  rfl

end Power

/-! ### Listings in another order -/

namespace Files

variable (answer : (op : FileOp) → op.Answer)

/-- The result of a program over files that stay as they are. -/
def amid {α : Type} (p : Program Files α) : α :=
  Id.run (p.interpret fun op => pure (answer op))

theorem amid_bind {α β : Type} (p : Program Files α) (f : α → Program Files β) :
    amid answer (p >>= f) = amid answer (f (amid answer p)) := by
  unfold amid
  rw [Program.interpret_bind]
  rfl

theorem amid_each {α β : Type} (f : α → Program Files β) (l : List α) :
    amid answer (Program.each f l) = l.map fun a => amid answer (f a) := by
  induction l with
  | nil => rfl
  | cons a rest ih =>
    rw [Program.each, amid_bind, amid_bind, ih]
    rfl

end Files

namespace Device

open Files

variable (answer : (op : FileOp) → op.Answer)

/-- The entries that a directory is listed with. -/
def listed (dir : Path) : List Path := amid answer (entries dir)

/-- The supply whose attributes are in a directory. -/
def supplyAt (dir : Path) : Supply := amid answer (readSupply dir)

/-- Some interface is wireless and up. -/
def wifi (netDir : Path) : Bool :=
  (listed answer netDir).any fun dir => amid answer (isWirelessUp dir)

/-- The power supplies, in the order of their listing. -/
def supplies (dir : Path) : List Supply := (listed answer dir).map (supplyAt answer)

theorem amid_readPower (supplyDir netDir : Path) :
    amid answer (readPower supplyDir netDir) =
      { Power.ofSupplies (supplies answer supplyDir) with wifiOnline := wifi answer netDir } := by
  have hwifi : ((listed answer netDir).map fun dir => amid answer (isWirelessUp dir)).any id =
      wifi answer netDir := by
    rw [List.any_map]
    rfl
  rw [← hwifi]
  simp only [readPower, amid_bind, amid_each]
  rfl

/-- The same supplies and the same interfaces, with the supplies listed in any other order. -/
structure Relisted (supplyDir netDir : Path) (answer answer' : (op : FileOp) → op.Answer) :
    Prop where
  order : (listed answer' supplyDir).Perm (listed answer supplyDir)
  attributes : ∀ dir ∈ listed answer supplyDir, supplyAt answer' dir = supplyAt answer dir
  interfaces : wifi answer' netDir = wifi answer netDir

/-- The files with a directory listed in a given order. -/
def relist (dir : Path) (order : List Path) : (op : FileOp) → op.Answer
  | .list path => if path.text = dir.text then .ok order else answer (.list path)
  | op => answer op

variable {answer} {supplyDir netDir : Path}

theorem listed_relist (dir : Path) (order : List Path) (path : Path) :
    listed (relist answer dir order) path =
      if path.text = dir.text then order else listed answer path := by
  have hlisted : ∀ answer : (op : FileOp) → op.Answer,
      listed answer path = (answer (.list path)).toOption.getD [] := by
    intro answer
    rfl
  rw [hlisted, hlisted, relist]
  split
  · rfl
  · rfl

theorem relisted_relist {order : List Path} (h : order.Perm (listed answer supplyDir)) :
    Relisted supplyDir netDir answer (relist answer supplyDir order) where
  order := by
    rw [listed_relist, if_pos rfl]
    exact h
  attributes := by
    intro dir _
    rfl
  interfaces := by
    have hmem : ∀ dir, dir ∈ listed (relist answer supplyDir order) netDir ↔
        dir ∈ listed answer netDir := by
      intro dir
      rw [listed_relist]
      split
      · rename_i hsame
        -- The interfaces may be in the directory of the supplies.
        obtain rfl : netDir = supplyDir := congrArg Path.mk hsame
        exact h.mem_iff
      · rfl
    have hup : ∀ dir, amid (relist answer supplyDir order) (isWirelessUp dir) =
        amid answer (isWirelessUp dir) := by
      intro dir
      rfl
    rw [wifi, wifi, Bool.eq_iff_iff, List.any_eq_true, List.any_eq_true]
    simp only [hmem, hup]

theorem Relisted.supplies_perm {answer' : (op : FileOp) → op.Answer}
    (h : Relisted supplyDir netDir answer answer') :
    (supplies answer' supplyDir).Perm (supplies answer supplyDir) := by
  have hmap : supplies answer' supplyDir =
      (listed answer' supplyDir).map (supplyAt answer) := by
    refine List.map_congr_left ?_
    intro dir hdir
    exact h.attributes dir (h.order.mem_iff.mp hdir)
  rw [hmap]
  exact h.order.map _

/-- Any supply of a listing may be the last one. -/
theorem exists_relisted (netDir : Path) {s : Supply} (h : s ∈ supplies answer supplyDir)
    (hbattery : s.IsBattery) :
    ∃ answer', Relisted supplyDir netDir answer answer' ∧
      (amid answer' (readPower supplyDir netDir)).battery = s.battery := by
  obtain ⟨dir, hdir, rfl⟩ := List.mem_map.mp h
  obtain ⟨before, after, heq⟩ := List.append_of_mem hdir
  have hperm : ((before ++ after) ++ [dir]).Perm (listed answer supplyDir) := by
    rw [heq]
    exact List.perm_append_singleton dir _ |>.trans List.perm_middle.symm
  refine ⟨_, relisted_relist hperm, ?_⟩
  have hsupplies : supplies (relist answer supplyDir ((before ++ after) ++ [dir])) supplyDir =
      (before ++ after).map (supplyAt answer) ++ [supplyAt answer dir] := by
    rw [supplies, listed_relist, if_pos rfl, List.map_append]
    rfl
  rw [amid_readPower, hsupplies]
  exact Power.ofSupplies_battery (Power.lastBattery?_concat hbattery)

/-- In any order of the listing a reading tells the same of all but the battery. It tells the same
of the battery too, in any order, exactly if the batteries that are present do. -/
theorem power_order_free_iff (answer : (op : FileOp) → op.Answer) (supplyDir netDir : Path) :
    (∀ answer', Relisted supplyDir netDir answer answer' →
        (amid answer (readPower supplyDir netDir)).SameFeeds
          (amid answer' (readPower supplyDir netDir))) ∧
      ((∀ answer', Relisted supplyDir netDir answer answer' →
          amid answer' (readPower supplyDir netDir) = amid answer (readPower supplyDir netDir)) ↔
        Power.Concordant (supplies answer supplyDir)) := by
  constructor
  · intro answer' h
    have hfeeds := Power.sameFeeds_perm h.supplies_perm
    rw [amid_readPower, amid_readPower]
    exact { hfeeds with wifiOnline := h.interfaces }
  · constructor
    · intro hsame s hs s' hs' hbattery hbattery'
      obtain ⟨answer₁, hrelisted, hlast⟩ := exists_relisted netDir hs hbattery
      obtain ⟨answer₂, hrelisted', hlast'⟩ := exists_relisted netDir hs' hbattery'
      rw [← hlast, ← hlast', hsame answer₁ hrelisted, hsame answer₂ hrelisted']
    · intro hconcordant answer' h
      rw [amid_readPower, amid_readPower, hconcordant.ofSupplies_perm h.supplies_perm, h.interfaces]

/-- Files with these power supplies, each with its attributes. -/
def shelf (supplies : List (String × List (String × String))) : (op : FileOp) → op.Answer :=
  let files (attributes : List (String × String)) : List (String × Node) :=
    attributes.map fun (name, text) => (name, .file text.toUTF8 Node.fileMode)
  let dirs := supplies.map fun (name, attributes) =>
    (name, Node.directory Node.directoryMode (files attributes))
  let tree : Tree :=
    ⟨.directory Node.directoryMode [("power", .directory Node.directoryMode dirs)]⟩
  fun op => (tree.perform op).1

/-- A battery with the text of its status attribute. -/
def batteryDir (name status : String) : String × List (String × String) :=
  (name, [("type", "Battery\n"), ("status", status)])

/-- Two batteries that tell different states, listed one way and the other. -/
theorem power_depends_on_order :
    let one := shelf [batteryDir "left" "Full\n", batteryDir "right" "Discharging\n"]
    let other := shelf [batteryDir "right" "Discharging\n", batteryDir "left" "Full\n"]
    Relisted ⟨"/power"⟩ ⟨"/net"⟩ one other ∧
      (amid one (readPower ⟨"/power"⟩ ⟨"/net"⟩)).batteryState = .discharging ∧
      (amid other (readPower ⟨"/power"⟩ ⟨"/net"⟩)).batteryState = .full := by
  refine ⟨⟨?_, ?_, rfl⟩, ?_, ?_⟩
  · exact List.Perm.swap (Path.mk "/power/left") (Path.mk "/power/right") []
  · exact List.forall_mem_cons.mpr ⟨rfl, List.forall_mem_singleton.mpr rfl⟩
  · decide +kernel
  · decide +kernel

end Device

end Overseer
