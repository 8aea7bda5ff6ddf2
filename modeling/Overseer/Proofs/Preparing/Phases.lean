import Overseer.Proofs.Polling.Setup
import Overseer.Proofs.Polling.Views
import Overseer.Proofs.Stopping.Conversation
import Overseer.Setup

/-!
The phases of an attempt to set up.

An attempt compares the binaries, stops the worker and installs it if they differ, looks for its
process and launches it if there is none, connects to it, and introduces the two to each other.
`Phases` holds what each phase exchanged, `Phases.Proceeds` when a phase is reached at all, and
`run_ensures` says that every attempt has such phases, whatever its surroundings answer. What is
done in which order is read off them in `setup_in_order`.
-/

namespace Overseer

open Program

/-! ### Comparing the binaries -/

theorem byteArray_beq_iff {a b : ByteArray} : (a == b) = true ↔ a = b := by
  obtain ⟨xs⟩ := a
  obtain ⟨ys⟩ := b
  show (xs == ys) = true ↔ _
  simp

namespace Installer

/-- Both binaries were read, and they have the same hash. -/
def Current (i : Installer) (trace : List (Exchange Effects)) : Prop :=
  ∃ bundled installed, trace =
      [⟨.file (.readBytes i.source), .ok bundled⟩,
        ⟨.file (.readBytes i.installed), .ok installed⟩] ∧
    Bytes.Sha256.digest installed = Bytes.Sha256.digest bundled

/-- The bundled binary is read, and then the installed one. A binary that cannot be read ends the
comparison. -/
inductive Compares (i : Installer) : List (Exchange Effects) → Prop where
  | unbundled (fault : IoFault) : i.Compares [⟨.file (.readBytes i.source), .error fault⟩]
  | uninstalled (bundled : ByteArray) (fault : IoFault) :
      i.Compares [⟨.file (.readBytes i.source), .ok bundled⟩,
        ⟨.file (.readBytes i.installed), .error fault⟩]
  | both (bundled installed : ByteArray) :
      i.Compares [⟨.file (.readBytes i.source), .ok bundled⟩,
        ⟨.file (.readBytes i.installed), .ok installed⟩]

/-- Files are only read. -/
def ReadsOnly (trace : List (Exchange Effects)) : Prop :=
  ∀ e ∈ trace, ∃ path, e.op = .file (.readBytes path)

theorem Compares.readsOnly {i : Installer} {trace : List (Exchange Effects)}
    (h : i.Compares trace) : ReadsOnly trace := by
  cases h <;> simp [ReadsOnly]

theorem isCurrent_ensures (i : Installer) :
    Ensures (Action.files i.isCurrent) fun trace current =>
      i.Compares trace ∧ (current = true ↔ i.Current trace) := by
  refine Ensures.ask fun bundled => ?_
  cases bundled with
  | error fault => exact Ensures.done ⟨.unbundled fault, by simp [Current]⟩
  | ok bundled =>
    refine Ensures.ask fun installed => ?_
    cases installed with
    | error fault => exact Ensures.done ⟨.uninstalled bundled fault, by simp [Current]⟩
    | ok installed =>
      refine Ensures.done ⟨.both bundled installed, byteArray_beq_iff.trans ⟨?_, ?_⟩⟩
      · exact fun heq => ⟨bundled, installed, rfl, heq⟩
      · rintro ⟨bundled', installed', htrace, heq⟩
        cases htrace
        exact heq

end Installer

/-! ### Parts of an attempt -/

/-- The worker is stopped and installed unless the installed binary is current and may stay;
`installed` tells whether it may be launched then. -/
structure Prepared (plan : SetupPlan) (a : Attempt)
    (compare stop install : List (Exchange Effects)) (installed : Bool) : Prop where
  /-- The binaries are compared first, -/
  compared : plan.forceReinstall = false → plan.installer.Compares compare
  /-- except that a forced installation goes ahead whatever is installed. -/
  forced : plan.forceReinstall = true → compare = []
  kept : plan.forceReinstall = false → plan.installer.Current compare →
    stop = [] ∧ install = [] ∧ installed = true
  replaced : (plan.forceReinstall = false → ¬plan.installer.Current compare) →
    (∃ outcome, Stopping a.connection plan.processName a.controller.budgets stop outcome) ∧
      Follows (Action.files (plan.installer.ensureInstalled plan.forceReinstall)) install installed

section Prepared

variable {plan : SetupPlan} {a : Attempt} {compare stop install : List (Exchange Effects)}
  {installed : Bool}

theorem Prepared.readsOnly (h : Prepared plan a compare stop install installed) :
    Installer.ReadsOnly compare := by
  cases hforce : plan.forceReinstall with
  | false => exact (h.compared hforce).readsOnly
  | true =>
    rw [h.forced hforce]
    exact fun _ => nofun

theorem Prepared.kept_or_replaced (h : Prepared plan a compare stop install installed) :
    (plan.forceReinstall = false ∧ plan.installer.Current compare ∧
        stop = [] ∧ install = [] ∧ installed = true) ∨
      ((∃ outcome, Stopping a.connection plan.processName a.controller.budgets stop outcome) ∧
        Follows (Action.files (plan.installer.ensureInstalled plan.forceReinstall)) install
          installed) := by
  by_cases hkept : plan.forceReinstall = false ∧ plan.installer.Current compare
  · exact .inl ⟨hkept.1, hkept.2, h.kept hkept.1 hkept.2⟩
  · exact .inr (h.replaced fun hforce hcurrent => hkept ⟨hforce, hcurrent⟩)

end Prepared

namespace SetupPlan

variable (plan : SetupPlan) (a : Attempt)

/-- The look-up and the launch of the worker. -/
def starting (looked : Option Lookup) (launched : Option Bool) : List (Exchange Effects) :=
  looked.toList.map (fun l => ⟨.lookUp plan.processName, l⟩) ++ launched.toList.map fun started =>
    ⟨.spawn plan.installer.installed plan.launchArgs plan.workingDir, started⟩

/-- Reading the preferences, and what follows from the answer. -/
def introducing (introduced : Option (Except ChannelError Unit)) :
    Option (Except ChannelError Preferences) → List (Exchange Effects)
  | none => []
  | some (.error e) => [⟨.channel (.call .getPreferences), .error e⟩, ⟨.channel .close, ()⟩]
  | some (.ok preferences) =>
    [⟨.channel (.call .getPreferences), .ok preferences⟩, ⟨.post (.preferences preferences), ()⟩]
      ++ introduced.toList.map fun answer =>
        ⟨.channel (.call (.setHostInfo plan.host.model plan.host.osVersion)), answer⟩

end SetupPlan

theorem Controller.quitGracefully_frame (c : Controller) (name : String)
    (connection : Connection) :
    Ensures (c.quitGracefully name connection) fun _ (_, _, connection') =>
      ∃ state, connection' = { connection with state } := by
  refine Ensures.bind connection.connect_ensures ?_
  rintro trace ⟨connected, connection₁⟩ ⟨-, rfl⟩
  cases connected with
  | false => exact Ensures.done ⟨_, rfl⟩
  | true =>
    refine Ensures.question fun answer => Ensures.question fun _ => ?_
    cases answer with
    | error e => exact Ensures.done ⟨_, rfl⟩
    | ok => exact Ensures.bind (.self _) fun _ _ _ => Ensures.done ⟨_, rfl⟩

/-- Stopping closes and opens the connection, which stays with the same worker. -/
theorem Controller.terminate_frame (c : Controller) (name : String) (connection : Connection) :
    Ensures (c.terminate name connection) fun _ (_, _, connection') =>
      ∃ state, connection' = { connection with state } := by
  refine Ensures.bind (.self (c.find name)) ?_
  rintro first ⟨pid?, c₁⟩ -
  cases pid? with
  | none => exact Ensures.done ⟨connection.state, rfl⟩
  | some pid =>
    refine Ensures.bind (Controller.quitGracefully_frame ..) ?_
    rintro second ⟨gone, c₂, connection₂⟩ hframe
    cases gone with
    | true => exact Ensures.done hframe
    | false => exact Ensures.bind (.self _) fun _ _ _ => Ensures.done hframe

namespace SetupPlan

variable (plan : SetupPlan) (a : Attempt)

theorem install_ensures :
    Ensures (plan.install a) fun trace (installed, a') =>
      a'.status = a.status ∧ (∃ state, a'.connection = { a.connection with state }) ∧
        ∃ compare stop install, trace = compare ++ stop ++ install ∧
          Prepared plan a compare stop install installed := by
  have hreplace : Ensures (plan.replace a) fun trace (installed, a') =>
        a'.status = a.status ∧ (∃ state, a'.connection = { a.connection with state }) ∧
          ∃ stop install, trace = stop ++ install ∧
            (∃ outcome, Stopping a.connection plan.processName a.controller.budgets stop outcome) ∧
            Follows (Action.files (plan.installer.ensureInstalled plan.forceReinstall)) install
              installed := by
    refine Ensures.bind ((a.controller.terminate_ensures ..).and
      (a.controller.terminate_frame ..)) ?_
    rintro stop ⟨outcome, controller, connection⟩ ⟨⟨-, hstopping⟩, hframe⟩
    refine Ensures.bind (.self _) fun install installed hinstall => Ensures.done ?_
    rw [List.append_nil]
    exact ⟨rfl, hframe, stop, install, rfl, ⟨outcome, hstopping⟩, hinstall⟩
  rw [install_eq]
  by_cases hforce : plan.forceReinstall
  · rw [if_pos hforce]
    refine Ensures.mono hreplace ?_
    rintro trace ⟨installed, a'⟩ ⟨hstatus, hframe, stop, install, rfl, hreplaced⟩
    refine ⟨hstatus, hframe, [], stop, install, rfl, ?_⟩
    have hnot : plan.forceReinstall ≠ false := by simp [hforce]
    exact ⟨fun hunforced => absurd hunforced hnot, fun _ => rfl,
      fun hunforced => absurd hunforced hnot, fun _ => hreplaced⟩
  · rw [if_neg hforce]
    refine Ensures.bind plan.installer.isCurrent_ensures fun compare current hcompare => ?_
    obtain ⟨hcompares, hcurrent⟩ := hcompare
    cases current with
    | true =>
      refine Ensures.done ⟨rfl, ⟨a.connection.state, rfl⟩, compare, [], [], by simp,
        fun _ => hcompares, fun hforced => absurd hforced hforce, ?_, ?_⟩
      · exact fun _ _ => ⟨rfl, rfl, rfl⟩
      · exact fun hstale => absurd (hcurrent.mp rfl) (hstale (by simpa using hforce))
    | false =>
      refine Ensures.mono hreplace ?_
      rintro trace ⟨installed, a'⟩ ⟨hstatus, hframe, stop, install, rfl, hreplaced⟩
      refine ⟨hstatus, hframe, compare, stop, install, by simp, fun _ => hcompares,
        fun hforced => absurd hforced hforce, ?_, fun _ => hreplaced⟩
      exact fun _ hkept => absurd (hcurrent.mpr hkept) nofun

theorem ensureRunning_ensures :
    Ensures (plan.ensureRunning a) fun trace (running, a') =>
      a'.status = a.status ∧ a'.connection = a.connection ∧
        ∃ l launched, trace = plan.starting (some l) launched ∧
          (launched.isSome ↔ l.pid? = none) ∧
          (running = true ↔ l.pid?.isSome ∨ launched = some true) := by
  refine Ensures.bind (Controller.find_ensures ..) ?_
  rintro first ⟨pid?, c₁⟩ ⟨-, l, rfl, rfl⟩
  cases hl : l.pid? with
  | some pid => exact Ensures.done ⟨rfl, rfl, l, none, rfl, by simp [hl], by simp [hl]⟩
  | none =>
    refine Ensures.question fun started => ?_
    cases started with
    | true => exact Ensures.done ⟨rfl, rfl, l, some true, rfl, by simp [hl], by simp⟩
    | false => exact Ensures.done ⟨rfl, rfl, l, some false, rfl, by simp [hl], by simp [hl]⟩

theorem introduce_ensures :
    Ensures (plan.introduce a) fun trace (ok, a') =>
      a'.status = a.status.after (posts trace) ∧ ∃ preferences introduced,
        trace = plan.introducing introduced (some preferences) ∧
          (introduced.isSome ↔ ∃ p, preferences = .ok p) ∧
          (ok = true ↔ ∃ p, preferences = .ok p) := by
  refine Ensures.question fun answer => ?_
  cases answer with
  | error e => exact Ensures.question fun _ => Ensures.done ⟨rfl, .error e, none, rfl, by simp⟩
  | ok p =>
    refine Ensures.question fun _ => Ensures.question fun answer => Ensures.done ?_
    exact ⟨rfl, .ok p, some answer, rfl, by simp⟩

end SetupPlan

/-! ### The whole attempt -/

/-- What each phase of an attempt exchanged. A phase that is not reached exchanged nothing. -/
structure Phases where
  /-- Comparing the installed binary with the bundled one. -/
  compare : List (Exchange Effects)
  stop : List (Exchange Effects)
  install : List (Exchange Effects)
  /-- Whether the worker may be launched. -/
  installed : Bool
  /-- What the look-up after that showed. -/
  looked : Option Lookup := none
  /-- Whether the worker could be started. -/
  launched : Option Bool := none
  /-- The attempts to connect, each with whether it succeeded. -/
  tries : List (List (Exchange Effects) × Bool) := []
  /-- The answer to the request for the preferences. -/
  preferences : Option (Except ChannelError Preferences) := none
  /-- The answer to what the worker is told about the host. -/
  introduced : Option (Except ChannelError Unit) := none

namespace Phases

/-- One phase after the other. -/
def work (phases : Phases) (plan : SetupPlan) : List (Exchange Effects) :=
  phases.compare ++ phases.stop ++ phases.install
    ++ plan.starting phases.looked phases.launched
    ++ Connection.retrying plan.retry.connectDelayMs phases.tries
    ++ plan.introducing phases.introduced phases.preferences

/-- All of an attempt: its phases between the two changes of the setup status. -/
def trace (phases : Phases) (plan : SetupPlan) (ok : Bool) : List (Exchange Effects) :=
  [⟨.post (.setup .launching), ()⟩] ++ phases.work plan
    ++ [⟨.post (.setup (if ok then .available else .error)), ()⟩]

/-- When each phase is reached, and how the attempt ends. -/
structure Proceeds (phases : Phases) (plan : SetupPlan) (a : Attempt) (ok : Bool) : Prop where
  prepared : Prepared plan a phases.compare phases.stop phases.install phases.installed
  looked_iff : phases.looked.isSome ↔ phases.installed = true
  launched_iff : phases.launched.isSome ↔ ∃ l, phases.looked = some l ∧ l.pid? = none
  tries_iff : phases.tries ≠ [] ↔
    (∃ l, phases.looked = some l ∧ l.pid?.isSome) ∨ phases.launched = some true
  retries : phases.tries ≠ [] → ∃ connected,
    a.connection.Retries (max 1 plan.retry.connectAttempts) phases.tries connected
  preferences_iff : phases.preferences.isSome ↔ ∃ t ∈ phases.tries, t.2 = true
  introduced_iff : phases.introduced.isSome ↔ ∃ p, phases.preferences = some (.ok p)
  ok_iff : ok = true ↔ ∃ p, phases.preferences = some (.ok p)

end Phases

namespace SetupPlan

variable (plan : SetupPlan) (a : Attempt)

/-- Every attempt goes through such phases. One that fails leaves the snapshot as it was. -/
theorem steps_ensures :
    Ensures (plan.steps a) fun trace (ok, a') =>
      (ok = false → a'.status = a.status) ∧
        ∃ phases : Phases, trace = phases.work plan ∧ phases.Proceeds plan a ok := by
  refine Ensures.bind (plan.install_ensures a) ?_
  rintro first ⟨installed, a₁⟩
    ⟨hstatus₁, ⟨state, hconnection₁⟩, compare, stop, install, rfl, hprepared⟩
  cases installed with
  | false =>
    refine Ensures.done ⟨fun _ => hstatus₁,
      ⟨compare, stop, install, false, none, none, [], none, none⟩, ?_, ?_⟩
    · simp [Phases.work, starting, introducing, Connection.retrying]
    · exact ⟨hprepared, by simp, by simp, by simp, by simp, by simp, by simp, by simp⟩
  | true =>
    refine Ensures.bind (plan.ensureRunning_ensures a₁) ?_
    rintro second ⟨running, a₂⟩ ⟨hstatus₂, hconnection₂, l, launched, rfl, hlaunched, hrunning⟩
    have hstatus : a₂.status = a.status := hstatus₂.trans hstatus₁
    cases running with
    | false =>
      refine Ensures.done ⟨fun _ => hstatus,
        ⟨compare, stop, install, true, some l, launched, [], none, none⟩, ?_, ?_⟩
      · simp [Phases.work, introducing, Connection.retrying]
      · refine ⟨hprepared, by simp, by simp [hlaunched], ?_, by simp, by simp, by simp, by simp⟩
        simpa using hrunning
    | true =>
      refine Ensures.bind (Connection.connectAgain_ensures ..) ?_
      rintro third ⟨connected, connection⟩ ⟨-, tries, rfl, hretries⟩
      have hretries : a.connection.Retries (max 1 plan.retry.connectAttempts) tries connected := by
        rw [hconnection₂, hconnection₁] at hretries
        have hbudget : plan.retry.connectAttempts - 1 + 1 = max 1 plan.retry.connectAttempts := by
          omega
        exact hbudget ▸ hretries.of_state
      have hconnected := hretries.connected_iff
      cases connected with
      | false =>
        refine Ensures.done ⟨fun _ => hstatus,
          ⟨compare, stop, install, true, some l, launched, tries, none, none⟩, ?_, ?_⟩
        · simp [Phases.work, introducing]
        · refine ⟨hprepared, by simp, by simp [hlaunched], ?_, fun _ => ⟨false, hretries⟩, ?_,
            by simp, by simp⟩
          · simpa [hretries.ne_nil] using hrunning
          · simpa using hconnected
      | true =>
        refine (plan.introduce_ensures { a₂ with connection }).mono ?_
        rintro fourth ⟨ok, a₃⟩ ⟨hstatus₃, preferences, introduced, rfl, hintroduced, hok⟩
        refine ⟨fun hfailed => ?_,
          ⟨compare, stop, install, true, some l, launched, tries, some preferences, introduced⟩,
          ?_, ?_⟩
        · cases preferences with
          | error e => exact hstatus₃.trans hstatus
          | ok p => simp [hfailed] at hok
        · simp [Phases.work]
        · refine ⟨hprepared, by simp, by simp [hlaunched], ?_, fun _ => ⟨true, hretries⟩, ?_,
            by simpa using hintroduced, by simpa using hok⟩
          · simpa [hretries.ne_nil] using hrunning
          · simpa using hconnected

theorem run_ensures :
    Ensures (plan.run a) fun trace (ok, a') =>
      (ok = true → a'.status.setup = .available) ∧
        (ok = false → a'.status = { a.status with setup := .error }) ∧
        ∃ phases : Phases, trace = phases.trace plan ok ∧ phases.Proceeds plan a ok := by
  refine Ensures.question fun _ => ?_
  refine Ensures.bind (plan.steps_ensures _) ?_
  rintro trace ⟨ok, a₁⟩ ⟨hfailed, phases, rfl, hproceeds⟩
  refine Ensures.question fun _ => Ensures.done ⟨?_, ?_, phases, by simp [Phases.trace], ?_⟩
  · rintro rfl
    rfl
  · rintro rfl
    rw [hfailed rfl]
    rfl
  · exact { hproceeds with prepared := { hproceeds.prepared with } }

end SetupPlan

end Overseer
