import Overseer.Proofs.Cadence.Beats

/-!
What is reported of the display.

A poller takes the state of the display from commands only, and every device report carries the
state that it holds by then, as that of the display and as that of the user
(`Session.handle_reports`).
-/

namespace Overseer

open Program

/-- Every device report that is made says that the display is in this state, and the user too. -/
def ReportsScreen (on : Bool) (trace : List (Exchange Effects)) : Prop :=
  ∀ device, .reportDevice device ∈ requests trace →
    device.displayOn = on ∧ device.userActive = on

variable {on : Bool} {first second trace : List (Exchange Effects)}

theorem reportsScreen_append :
    ReportsScreen on (first ++ second) ↔ ReportsScreen on first ∧ ReportsScreen on second := by
  simp only [ReportsScreen, requests_append, List.mem_append, or_imp]
  exact forall_and

theorem reportsScreen_of_not_mem (h : ∀ device, .reportDevice device ∉ requests trace) :
    ReportsScreen on trace :=
  fun device hdevice => absurd hdevice (h device)

theorem reportsScreen_nil : ReportsScreen on [] :=
  reportsScreen_of_not_mem fun _ => List.not_mem_nil

/-! ### Ticks -/

/-- A tick leaves the state of the display alone. -/
theorem Cadence.ticked_screenOn (c : Cadence) (force reported : Bool) :
    (c.ticked force reported).screenOn = c.screenOn := by
  have hnext : (c.next force).2.screenOn = c.screenOn := by
    unfold next
    split_ifs <;> rfl
  unfold ticked
  rw [← hnext]
  cases reported with
  | false => rfl
  | true =>
    unfold Cadence.reported
    simp only [if_true]
    split_ifs <;> rfl

namespace Poller

variable (p : Poller)

theorem poll_reports (force : Bool) :
    Ensures (p.poll force) fun trace _ => ReportsScreen p.cadence.screenOn trace := by
  rw [poll_eq]
  refine Ensures.question fun power => Ensures.question fun report => ?_
  refine (readFor_shows _ _).mono ?_
  rintro rest ⟨outcome, p'⟩ ⟨-, -, hrest⟩
  intro device hdevice
  rcases List.mem_cons.mp hdevice with heq | hmem
  · cases heq
    exact ⟨rfl, rfl⟩
  · exact absurd hmem (hrest device)

theorem tick_reports (force : Bool) :
    Ensures (p.tick force) fun trace (_, p') =>
      p'.cadence.screenOn = p.cadence.screenOn ∧ ReportsScreen p.cadence.screenOn trace := by
  refine Ensures.bind (isAlive_ensures p.connection) fun look alive looked => ?_
  have hlook : ReportsScreen p.cadence.screenOn look :=
    reportsScreen_of_not_mem (by simp [looked.shows.1])
  cases alive with
  | true =>
    refine Ensures.mono ((p.poll_moves force).and (p.poll_reports force)) ?_
    rintro trace ⟨outcome, p'⟩ ⟨⟨-, hcadence⟩, hreports⟩
    refine ⟨?_, reportsScreen_append.mpr ⟨hlook, hreports⟩⟩
    rw [hcadence]
    exact p.cadence.ticked_screenOn _ _
  | false =>
    refine Ensures.bind p.setUp_shows ?_
    rintro setup ⟨ok, q⟩ ⟨hq, -, hprepares, -⟩
    have hsetup : ReportsScreen p.cadence.screenOn setup :=
      reportsScreen_of_not_mem fun device => hprepares _
    cases ok with
    | false =>
      refine Ensures.done ⟨by rw [hq], ?_⟩
      rw [List.append_nil]
      exact reportsScreen_append.mpr ⟨hlook, hsetup⟩
    | true =>
      refine Ensures.mono ((q.poll_moves true).and (q.poll_reports true)) ?_
      rintro trace ⟨outcome, p'⟩ ⟨⟨-, hcadence⟩, hreports⟩
      rw [hq] at hcadence hreports
      refine ⟨?_, reportsScreen_append.mpr ⟨hlook, reportsScreen_append.mpr ⟨hsetup, hreports⟩⟩⟩
      rw [hcadence]
      exact p.cadence.ticked_screenOn _ _

end Poller

/-! ### Wakes -/

/-- The switch of the display that a command tells of. -/
def Command.switch? : Command → Option Bool
  | .displayChanged on => some on
  | _ => none

/-- The switch of the display that a poller wakes up for. -/
def Wake.switch? : Wake → Option Bool
  | .tick => none
  | .command told => told.switch?

namespace Session

/-- The display as the poller knows it. -/
def screenOn (s : Session) : Bool := s.poller.cadence.screenOn

theorem tick_reports (s : Session) (force : Bool) :
    Ensures (s.tick force) fun trace s' =>
      s'.screenOn = s.screenOn ∧ ReportsScreen s'.screenOn trace := by
  refine Ensures.bind (s.poller.tick_reports force) ?_
  rintro trace ⟨outcome, p'⟩ ⟨hscreen, hreports⟩
  refine Ensures.done ⟨hscreen, ?_⟩
  rw [List.append_nil]
  rw [screenOn, hscreen]
  exact hreports

/-- After a wake the poller has the display in the state that it was told, or else as before, and so
say the reports made meanwhile. -/
theorem handle_reports {s : Session} {now : Nat} {wake : Wake} {action : Action Session}
    (h : s.handle now wake = some action) :
    Ensures action fun trace s' =>
      s'.screenOn = wake.switch?.getD s.screenOn ∧ ReportsScreen s'.screenOn trace := by
  cases wake with
  | tick =>
    cases h
    exact tick_reports _ false
  | command command =>
    cases command with
    | forceRefresh =>
      cases h
      exact s.tick_reports true
    | displayChanged on =>
      cases h
      cases on with
      | true => exact tick_reports _ true
      | false => exact Ensures.done ⟨rfl, reportsScreen_nil⟩
    | reconfigure polling =>
      rw [handle_reconfigure] at h
      cases h
      exact Ensures.done ⟨rfl, reportsScreen_nil⟩
    | shutdown => cases h

end Session

end Overseer
