import Overseer.Proofs.Polling.Turns
import Overseer.Proofs.Reloading.Applying

/-!
When a running poller ticks.

`Session.Clocked` runs a session along a clock on which handling takes no time: the ticker wakes it
when it is due, commands wake it when they arrive, and of two that come at one instant either may be
first. The run leaves a log of its turns, and its ticks are read off the log: in each turn the
poller went through a whole tick, or nothing was asked (`ShowsTicks`). Main statement: the regular
ticks are at the start and then always one period apart, a new period begins where it is set, and
commands that ask for a refresh add one forced tick each, at their own instant, without moving the
regular ones (`ticks_on_schedule`).
-/

namespace Overseer

open Program

/-! ### Ticks of a log -/

/-- A tick asks for something: it tries to set up, or it reports the device. -/
theorem Poller.Ticked.trace_ne_nil {p p' : Poller} {trace : List (Exchange Effects)}
    {outcome : Except TickError TickOutcome} (h : p.Ticked trace outcome p') : trace ≠ [] := by
  cases h with
  | unready looked failed =>
    exact List.append_ne_nil_of_right_ne_nil _ (List.ne_nil_of_mem (p.setUp_starts failed))
  | alive looked reported answered =>
    obtain ⟨power, status, answer, rfl⟩ := reported
    simp
  | ready looked prepared reported answered =>
    obtain ⟨power, status, answer, rfl⟩ := reported
    simp

namespace Turn

/-- The poller went through a whole tick, once its settings were changed if at all, and its cadence
moved as it does with a forced tick, or as with one that is not. -/
def Ticked (t : Turn) (forced : Bool) : Prop :=
  ∃ q outcome, t.before.poller.Retuned q ∧ q.Ticked t.trace outcome t.after.poller ∧
    (Beat.ofTick forced q.cadence t.trace t.after.poller.cadence).Regular

/-- Nothing was asked, and at most the settings changed. -/
def Quiet (t : Turn) : Prop := t.trace = [] ∧ t.before.poller.Retuned t.after.poller

theorem Ticked.not_quiet {t : Turn} {forced : Bool} (h : t.Ticked forced) : ¬t.Quiet := by
  rintro ⟨hnothing, -⟩
  obtain ⟨q, outcome, -, hticked, -⟩ := h
  exact hticked.trace_ne_nil hnothing

end Turn

/-- The ticks of a log of turns, each with its time and whether it is forced. -/
inductive ShowsTicks : List (Nat × Turn) → List (Nat × Bool) → Prop where
  | nil : ShowsTicks [] []
  | tick {time turn log forced ticks} (ticked : turn.Ticked forced) (rest : ShowsTicks log ticks) :
      ShowsTicks ((time, turn) :: log) ((time, forced) :: ticks)
  | quiet {time turn log ticks} (quiet : turn.Quiet) (rest : ShowsTicks log ticks) :
      ShowsTicks ((time, turn) :: log) ticks

/-- A log leaves no doubt about when ticks are made. -/
theorem ShowsTicks.times_eq {log : List (Nat × Turn)} {ticks ticks' : List (Nat × Bool)}
    (h : ShowsTicks log ticks) (h' : ShowsTicks log ticks') :
    ticks.map Prod.fst = ticks'.map Prod.fst := by
  induction h generalizing ticks' with
  | nil =>
    cases h'
    rfl
  | tick ticked rest ih =>
    cases h' with
    | tick _ rest' => exact congrArg (_ :: ·) (ih rest')
    | quiet quiet _ => exact absurd quiet ticked.not_quiet
  | quiet quiet rest ih =>
    cases h' with
    | tick ticked _ => exact absurd quiet ticked.not_quiet
    | quiet _ rest' => exact ih rest'

/-! ### What a wake does -/

/-- Whether a wake ticks, and if it does, whether the tick is forced (`Session.handle_turn`). -/
def Wake.tick? : Wake → Option Bool
  | .tick => some false
  | .command .forceRefresh => some true
  | .command (.displayChanged true) => some true
  | .command _ => none

namespace Session

/-- The session with all that a wake sets before it ticks. -/
def prepared (s : Session) (now : Nat) : Wake → Session
  | .tick => { s with ticker := s.ticker.fired now }
  | .command (.displayChanged on) => { s with poller := s.poller.setScreen on }
  | .command (.reconfigure polling) => s.withSettings now polling
  | .command _ => s

/-- A wake is handled with one tick or with none, and only a stop is not handled. -/
theorem handle_eq (s : Session) (now : Nat) (wake : Wake) :
    s.handle now wake =
      if wake = .command .shutdown then none
      else some (match wake.tick? with
        | some forced => (s.prepared now wake).tick forced
        | none => pure (s.prepared now wake)) := by
  cases wake with
  | tick => rfl
  | command command =>
    cases command with
    | forceRefresh => rfl
    | displayChanged on => cases on <;> rfl
    | reconfigure polling =>
      rw [handle_reconfigure]
      rfl
    | shutdown => rfl

theorem prepared_retuned (s : Session) (now : Nat) (wake : Wake) :
    s.poller.Retuned (s.prepared now wake).poller := by
  cases wake with
  | tick => exact .same
  | command command =>
    cases command with
    | forceRefresh => exact .same
    | displayChanged on => exact .screen on
    | reconfigure polling =>
      have hretuned : s.poller.Retuned (s.poller.reconfigure polling).2 := .settings polling
      rw [Poller.reconfigure_eq] at hretuned
      exact hretuned
    | shutdown => exact .same

/-- What the turn of a wake shows. -/
theorem handle_turn {s : Session} {now : Nat} {wake : Wake} {action : Action Session}
    (h : s.handle now wake = some action) :
    Ensures action fun trace s' =>
      match wake.tick? with
      | some forced => (⟨s, trace, s'⟩ : Turn).Ticked forced
      | none => (⟨s, trace, s'⟩ : Turn).Quiet := by
  have hretuned := s.prepared_retuned now wake
  rw [handle_eq] at h
  split at h
  · cases h
  · cases h
    cases wake.tick? with
    | none => exact Ensures.done ⟨rfl, hretuned⟩
    | some forced =>
      refine ((tick_ensures _ forced).and (tick_regular _ forced)).mono ?_
      rintro trace s' ⟨⟨outcome, hticked⟩, hregular⟩
      exact ⟨_, outcome, hretuned, hticked, hregular⟩

/-- A tick leaves the ticker alone. -/
theorem tick_ticker (s : Session) (force : Bool) :
    Ensures (s.tick force) fun _ s' => s'.ticker = s.ticker := by
  refine Ensures.bind (.self (s.poller.tick force)) ?_
  intro trace result _
  exact Ensures.done rfl

/-- Only the settings of a wake move the ticker, and not what its tick comes to. -/
theorem handle_ticker {s : Session} {now : Nat} {wake : Wake} {action : Action Session}
    (h : s.handle now wake = some action) :
    Ensures action fun _ s' => s'.ticker = (s.prepared now wake).ticker := by
  rw [handle_eq] at h
  split at h
  · cases h
  · cases h
    split
    · exact tick_ticker _ _
    · exact Ensures.done rfl

/-! ### A clock on which handling takes no time -/

/-- What a session does up to the time at which nothing more can arrive: commands arrive at their
times, in the order of the list, and each turn is logged with its time. The session may be stopped
before. -/
inductive Clocked (close : Nat) : Session → List (Nat × Command) → List (Nat × Turn) → Prop where
  /-- The ticker is due, and no command has arrived before. -/
  | tick {s s' arrivals log action trace} (inTime : s.ticker.due ≤ close)
      (first : ∀ arrival ∈ arrivals, s.ticker.due ≤ arrival.1)
      (handled : s.handle s.ticker.due .tick = some action) (followed : Follows action trace s')
      (rest : Clocked close s' arrivals log) :
      Clocked close s arrivals ((s.ticker.due, ⟨s, trace, s'⟩) :: log)
  /-- A command arrives, and the ticker was not due before. -/
  | command {s s' time command arrivals log action trace} (first : time ≤ s.ticker.due)
      (handled : s.handle time (.command command) = some action)
      (followed : Follows action trace s') (rest : Clocked close s' arrivals log) :
      Clocked close s ((time, command) :: arrivals) ((time, ⟨s, trace, s'⟩) :: log)
  | stopped {s time arrivals} (first : time ≤ s.ticker.due) :
      Clocked close s ((time, .shutdown) :: arrivals) []
  | closed {s} (first : close ≤ s.ticker.due) : Clocked close s [] []

end Session

/-! ### The schedule -/

/-- The times `due`, `due + period`, `due + 2 * period` and so on before another time. -/
def instants (due period till : Nat) : List Nat :=
  (List.range ((till - due + (period - 1)) / period)).map fun k => due + k * period

/-- Regular ticks up to a time at which they end. One that is due at this very time may be
missing. -/
def Regular (due period till : Nat) (ticks : List Nat) : Prop :=
  ticks = instants due period till ∨
    ∃ k, till = due + k * period ∧ ticks = instants due period till ++ [till]

/-- Regular ticks up to a stop, with changes of the period, each given with its time and the new
period, which begins there. -/
def OnSchedule (stop due period : Nat) : List (Nat × Nat) → List Nat → Prop
  | [], ticks => Regular due period stop ticks
  | (time, next) :: changes, ticks =>
    ∃ before after, ticks = before ++ after ∧ Regular due period time before ∧
      OnSchedule stop (time + next) next changes after

/-- The commands that arrive before a stop. -/
def taken (arrivals : List (Nat × Command)) : List (Nat × Command) :=
  arrivals.takeWhile fun arrival => arrival.2 ≠ .shutdown

/-- When a session stops: when it is told to, or when nothing more can arrive. -/
def stopTime (close : Nat) (arrivals : List (Nat × Command)) : Nat :=
  ((arrivals.find? fun arrival => arrival.2 = .shutdown).map Prod.fst).getD close

/-- The changes of a period that commands bring, leaving out those to the period that is there. -/
def periodChanges (period : Nat) : List (Nat × Command) → List (Nat × Nat)
  | [] => []
  | (time, .reconfigure polling) :: rest =>
    if polling.interval = period then periodChanges period rest
    else (time, polling.interval) :: periodChanges polling.interval rest
  | _ :: rest => periodChanges period rest

/-- The command asks for a refresh. -/
def Command.refreshes : Command → Bool
  | .forceRefresh => true
  | .displayChanged on => on
  | _ => false

/-- When commands ask for a refresh. -/
def refreshTimes (arrivals : List (Nat × Command)) : List Nat :=
  (arrivals.filter fun arrival => arrival.2.refreshes).map Prod.fst

/-- When ticks of one kind are made. -/
def tickTimes (forced : Bool) (ticks : List (Nat × Bool)) : List Nat :=
  (ticks.filter fun tick => tick.2 = forced).map Prod.fst

example : instants 0 300 1000 = [0, 300, 600, 900] := by decide

/-! ### Regular ticks -/

section Schedule

variable {due period till stop : Nat} {ticks : List Nat} {changes : List (Nat × Nat)}

theorem instants_of_le (h : till ≤ due) (hperiod : 0 < period) : instants due period till = [] := by
  have hnone : (till - due + (period - 1)) / period = 0 := by
    apply Nat.div_eq_of_lt
    omega
  rw [instants, hnone]
  rfl

/-- The first instant, and then those from the next one on. -/
theorem instants_of_lt (h : due < till) (hperiod : 0 < period) :
    instants due period till = due :: instants (due + period) period till := by
  have hcount : (till - due + (period - 1)) / period =
      (till - (due + period) + (period - 1)) / period + 1 := by
    by_cases hlast : till ≤ due + period
    · have hnone : (till - (due + period) + (period - 1)) / period = 0 := by
        apply Nat.div_eq_of_lt
        omega
      rw [hnone]
      apply Nat.div_eq_of_lt_le
      · omega
      · omega
    · have hsplit : till - due + (period - 1) =
          till - (due + period) + (period - 1) + period := by omega
      rw [hsplit, Nat.add_div_right _ hperiod]
  have hshift : ∀ k, due + (k + 1) * period = due + period + k * period := by
    intro k
    rw [Nat.succ_mul]
    omega
  simp only [instants, hcount, List.range_succ_eq_map, List.map_cons, List.map_map,
    Function.comp_def, Nat.succ_eq_add_one, hshift, Nat.zero_mul, Nat.add_zero]

theorem regular_nil (h : till ≤ due) (hperiod : 0 < period) : Regular due period till [] :=
  .inl (instants_of_le h hperiod).symm

/-- A tick that is made when it is due, before the regular ticks from the next one on. -/
theorem Regular.cons (h : Regular (due + period) period till ticks) (hdue : due ≤ till)
    (hperiod : 0 < period) : Regular due period till (due :: ticks) := by
  rcases Nat.eq_or_lt_of_le hdue with rfl | hlt
  · -- The tick is due at the very end, and nothing comes after it.
    have hbeyond : instants (due + period) period due = [] :=
      instants_of_le (Nat.le_add_right due period) hperiod
    have hnil : ticks = [] := by
      rcases h with hticks | ⟨k, hk, hticks⟩
      · rw [hticks, hbeyond]
      · omega
    refine .inr ⟨0, by simp, ?_⟩
    rw [hnil, instants_of_le (Nat.le_refl due) hperiod]
    rfl
  · rcases h with hticks | ⟨k, hk, hticks⟩
    · left
      rw [hticks, instants_of_lt hlt hperiod]
    · right
      refine ⟨k + 1, ?_, ?_⟩
      · rw [Nat.succ_mul]
        omega
      · rw [hticks, instants_of_lt hlt hperiod]
        rfl

/-- The time at which the present period ends. -/
def endOf (stop : Nat) : List (Nat × Nat) → Nat
  | [] => stop
  | (time, _) :: _ => time

theorem onSchedule_nil (h : stop ≤ due) (hperiod : 0 < period) :
    OnSchedule stop due period [] [] :=
  regular_nil h hperiod

theorem OnSchedule.cons (h : OnSchedule stop (due + period) period changes ticks)
    (hdue : due ≤ endOf stop changes) (hperiod : 0 < period) :
    OnSchedule stop due period changes (due :: ticks) := by
  cases changes with
  | nil => exact Regular.cons h hdue hperiod
  | cons change rest =>
    obtain ⟨time, next⟩ := change
    obtain ⟨before, after, rfl, hbefore, hafter⟩ := h
    exact ⟨due :: before, after, rfl, hbefore.cons hdue hperiod, hafter⟩

end Schedule

theorem Config.Polling.interval_pos (polling : Config.Polling) : 0 < polling.interval :=
  Nat.lt_of_lt_of_le (by decide : 0 < Config.minInterval) (Nat.le_max_right _ _)

/-! ### Commands before a stop -/

section Arrivals

variable {close due period time : Nat} {command : Command} {arrivals : List (Nat × Command)}

theorem taken_cons (h : command ≠ .shutdown) :
    taken ((time, command) :: arrivals) = (time, command) :: taken arrivals := by
  simp [taken, h]

theorem stopTime_cons (h : command ≠ .shutdown) :
    stopTime close ((time, command) :: arrivals) = stopTime close arrivals := by
  simp [stopTime, h]

theorem le_stopTime (hclose : due ≤ close) (harrivals : ∀ arrival ∈ arrivals, due ≤ arrival.1) :
    due ≤ stopTime close arrivals := by
  unfold stopTime
  cases hfind : arrivals.find? fun arrival => arrival.2 = .shutdown with
  | none => exact hclose
  | some arrival => exact harrivals arrival (List.mem_of_find?_eq_some hfind)

theorem le_of_mem_periodChanges {change : Nat × Nat}
    (harrivals : ∀ arrival ∈ arrivals, due ≤ arrival.1)
    (hchange : change ∈ periodChanges period arrivals) : due ≤ change.1 := by
  fun_induction periodChanges period arrivals with
  | case1 period => cases hchange
  | case2 time polling rest ih =>
    exact ih (List.forall_mem_cons.mp harrivals).2 hchange
  | case3 period time polling rest hdiffers ih =>
    obtain ⟨hfirst, hrest⟩ := List.forall_mem_cons.mp harrivals
    rcases List.mem_cons.mp hchange with rfl | hlater
    · exact hfirst
    · exact ih hrest hlater
  | case4 period arrival rest hother ih => exact ih (List.forall_mem_cons.mp harrivals).2 hchange

/-- No period ends before a time that comes before everything else. -/
theorem le_endOf (hclose : due ≤ close) (harrivals : ∀ arrival ∈ arrivals, due ≤ arrival.1) :
    due ≤ endOf (stopTime close arrivals) (periodChanges period (taken arrivals)) := by
  cases hchanges : periodChanges period (taken arrivals) with
  | nil => exact le_stopTime hclose harrivals
  | cons change rest =>
    have hmem : change ∈ periodChanges period (taken arrivals) := by
      rw [hchanges]
      exact List.mem_cons_self
    refine le_of_mem_periodChanges ?_ hmem
    intro arrival harrival
    exact harrivals arrival ((List.takeWhile_prefix _).subset harrival)

end Arrivals

/-! ### Runs -/

namespace Session

variable {close : Nat} {s : Session} {polling : Config.Polling} {arrivals : List (Nat × Command)}
  {log : List (Nat × Turn)} {ticks : List (Nat × Bool)}

/-- What a run of a session comes to when it obeys some settings at first. -/
structure KeepsTime (close : Nat) (s : Session) (polling : Config.Polling)
    (arrivals : List (Nat × Command)) (ticks : List (Nat × Bool)) : Prop where
  regular : OnSchedule (stopTime close arrivals) s.ticker.due polling.interval
    (periodChanges polling.interval (taken arrivals)) (tickTimes false ticks)
  forced : tickTimes true ticks = refreshTimes (taken arrivals)

theorem KeepsTime.of_tick {s' : Session} (h : s'.KeepsTime close polling arrivals ticks)
    (next : s'.ticker.due = s.ticker.due + polling.interval) (inTime : s.ticker.due ≤ close)
    (first : ∀ arrival ∈ arrivals, s.ticker.due ≤ arrival.1) :
    s.KeepsTime close polling arrivals ((s.ticker.due, false) :: ticks) := by
  have hregular := h.regular
  rw [next] at hregular
  exact ⟨hregular.cons (le_endOf inTime first) polling.interval_pos, h.forced⟩

/-- A tick in time moves the ticker on by its period. -/
theorem Obeys.fired_due (hs : s.Obeys polling) :
    (s.ticker.fired s.ticker.due).due = s.ticker.due + polling.interval := by
  unfold Ticker.fired
  rw [if_neg (by omega), hs.period]

/-- A command adds a tick of its own at most, and moves the regular ones only with the period. -/
theorem KeepsTime.of_command {s' : Session} {time : Nat} {command : Command}
    (h : s'.KeepsTime close (command.polling?.getD polling) arrivals ticks) (hs : s.Obeys polling)
    (goesOn : command ≠ .shutdown) (first : time ≤ s.ticker.due)
    (next : s'.ticker = (s.prepared time (.command command)).ticker) :
    s.KeepsTime close polling ((time, command) :: arrivals)
      (((Wake.command command).tick?.toList.map fun forced => (time, forced)) ++ ticks) := by
  obtain ⟨hregular, hforced⟩ := h
  rw [next] at hregular
  constructor
  · rw [stopTime_cons goesOn, taken_cons goesOn]
    cases command with
    | forceRefresh => exact hregular
    | displayChanged on =>
      cases on with
      | true => exact hregular
      | false => exact hregular
    | reconfigure settings =>
      have hregular : OnSchedule (stopTime close arrivals)
          (s.withSettings time settings).ticker.due settings.interval
          (periodChanges settings.interval (taken arrivals)) (tickTimes false ticks) := hregular
      rw [periodChanges]
      by_cases hsame : settings.interval = polling.interval
      · have hkept : (s.withSettings time settings).ticker = s.ticker :=
          if_pos (hsame.trans hs.interval.symm)
        rw [if_pos hsame]
        rw [hkept, hsame] at hregular
        exact hregular
      · have hwound : (s.withSettings time settings).ticker =
            .startingAt (time + settings.interval) settings.interval := by
          refine if_neg ?_
          rw [hs.interval]
          exact hsame
        rw [if_neg hsame]
        rw [hwound] at hregular
        exact ⟨[], _, rfl, regular_nil first polling.interval_pos, hregular⟩
    | shutdown => exact absurd rfl goesOn
  · rw [taken_cons goesOn]
    cases command with
    | forceRefresh => exact congrArg (time :: ·) hforced
    | displayChanged on =>
      cases on with
      | true => exact congrArg (time :: ·) hforced
      | false => exact hforced
    | reconfigure settings => exact hforced
    | shutdown => exact absurd rfl goesOn

theorem Clocked.keepsTime (run : s.Clocked close arrivals log) (hs : s.Obeys polling) :
    ∃ ticks, ShowsTicks log ticks ∧ s.KeepsTime close polling arrivals ticks := by
  induction run generalizing polling with
  | closed first => exact ⟨[], .nil, onSchedule_nil first polling.interval_pos, rfl⟩
  | stopped first =>
    refine ⟨[], .nil, onSchedule_nil ?_ polling.interval_pos, ?_⟩
    · simpa [stopTime] using first
    · simp [taken]
      rfl
  | tick inTime first handled followed rest ih =>
    obtain ⟨ticks, hshows, hkeeps⟩ := ih (hs.handle handled followed)
    refine ⟨_, .tick (handle_turn handled followed) hshows, hkeeps.of_tick ?_ inTime first⟩
    rw [handle_ticker handled followed]
    exact hs.fired_due
  | @command s s' time command arrivals log action trace first handled followed rest ih =>
    obtain ⟨ticks, hshows, hkeeps⟩ := ih (hs.handle handled followed)
    have hgoes : command ≠ .shutdown := by
      rintro rfl
      cases handled
    have hturn := handle_turn handled followed
    refine ⟨_, ?_, hkeeps.of_command hs hgoes first (handle_ticker handled followed)⟩
    cases htick : (Wake.command command).tick? with
    | none =>
      rw [htick] at hturn
      exact .quiet hturn hshows
    | some forced =>
      rw [htick] at hturn
      exact .tick hturn hshows

/-! ### There is such a run -/

/-- Whatever wakes a session but a stop is handled somehow. -/
theorem exists_handled (s : Session) (now : Nat) (wake : Wake) (h : wake ≠ .command .shutdown) :
    ∃ action trace s', s.handle now wake = some action ∧ Follows action trace s' := by
  rw [handle_eq, if_neg h]
  exact ⟨_, _, _, rfl, follows_converse (fun _ => Effect.plain) [] _⟩

/-- Nothing arrives after some time, and everything in order. -/
structure Arrive (close : Nat) (arrivals : List (Nat × Command)) : Prop where
  inOrder : (arrivals.map Prod.fst).Pairwise (· ≤ ·)
  inTime : ∀ arrival ∈ arrivals, arrival.1 ≤ close

/-- Regular ticks go on up to any time before which nothing arrives. -/
theorem exists_ticked {till : Nat} (hs : s.Obeys polling) (hclose : till ≤ close)
    (hlater : ∀ arrival ∈ arrivals, till ≤ arrival.1) :
    ∃ s' : Session, s'.Obeys polling ∧ till ≤ s'.ticker.due ∧
      ∀ log, s'.Clocked close arrivals log → ∃ log', s.Clocked close arrivals log' := by
  induction hleft : till - s.ticker.due using Nat.strongRecOn generalizing s with
  | ind left ih =>
    by_cases hdue : till ≤ s.ticker.due
    · exact ⟨s, hs, hdue, fun log run => ⟨log, run⟩⟩
    · obtain ⟨action, trace, s₁, handled, followed⟩ :=
        s.exists_handled s.ticker.due .tick nofun
      have hticker := handle_ticker handled followed
      have hmoved : s₁.ticker.due = s.ticker.due + polling.interval := by
        rw [hticker]
        exact hs.fired_due
      have hpos := polling.interval_pos
      obtain ⟨s', hs', hdue', hrest⟩ :=
        ih (till - s₁.ticker.due) (by omega) (hs.handle handled followed) rfl
      refine ⟨s', hs', hdue', ?_⟩
      intro log run
      obtain ⟨log₁, hrun⟩ := hrest log run
      refine ⟨_, .tick (by omega) ?_ handled followed hrun⟩
      intro arrival harrival
      have hafter := hlater arrival harrival
      omega

theorem exists_clocked (hs : s.Obeys polling) (harrive : Arrive close arrivals) :
    ∃ log, s.Clocked close arrivals log := by
  induction arrivals generalizing s polling with
  | nil =>
    obtain ⟨s', -, hdue, hticked⟩ := exists_ticked hs (Nat.le_refl close) (List.forall_mem_nil _)
    exact hticked [] (.closed hdue)
  | cons arrival rest ih =>
    obtain ⟨time, command⟩ := arrival
    obtain ⟨hfirst, hinOrder⟩ := List.pairwise_cons.mp harrive.inOrder
    obtain ⟨hclose, hinTime⟩ := List.forall_mem_cons.mp harrive.inTime
    have hlater : ∀ arrival ∈ (time, command) :: rest, time ≤ arrival.1 := by
      refine List.forall_mem_cons.mpr ⟨Nat.le_refl time, ?_⟩
      intro arrival harrival
      exact hfirst arrival.1 (List.mem_map_of_mem harrival)
    obtain ⟨s', hs', hdue, hticked⟩ := exists_ticked hs hclose hlater
    by_cases hstop : command = .shutdown
    · subst hstop
      exact hticked [] (.stopped hdue)
    · obtain ⟨action, trace, s₁, handled, followed⟩ :=
        s'.exists_handled time (.command command) (by simpa using hstop)
      obtain ⟨log, hrun⟩ := ih (hs'.handle handled followed) ⟨hinOrder, hinTime⟩
      exact hticked _ (.command hdue handled followed hrun)

end Session

/-- Whatever arrives, in whatever order it is handled with ticks of the same instant, and whatever
ticks come to: of the ticks that the log of a run shows, the regular ones are on schedule, and each
command that asks for a refresh adds a forced one at its own instant. -/
theorem ticks_on_schedule {config : Config} {platform : Platform} {host : HostIdentity}
    {displayOn : Bool} {start close : Nat} {arrivals : List (Nat × Command)}
    (arrive : Session.Arrive close arrivals) :
    let s := Session.start (.ofConfig config platform host displayOn) start
    let period := config.polling.interval
    (∃ log, s.Clocked close arrivals log) ∧
      ∀ log, s.Clocked close arrivals log →
        ∃ ticks, ShowsTicks log ticks ∧
          OnSchedule (stopTime close arrivals) start period (periodChanges period (taken arrivals))
            (tickTimes false ticks) ∧
          tickTimes true ticks = refreshTimes (taken arrivals) ∧
          ∀ ticks', ShowsTicks log ticks' → ticks'.map Prod.fst = ticks.map Prod.fst := by
  have hobeys := Session.obeys_start config platform host displayOn start
  constructor
  · exact Session.exists_clocked hobeys arrive
  · intro log run
    obtain ⟨ticks, hshows, hregular, hforced⟩ := run.keepsTime hobeys
    exact ⟨ticks, hshows, hregular, hforced, fun ticks' hshows' => hshows'.times_eq hshows⟩

/-- Settings that bring a shorter period when a tick is due, and then settings with the same one. -/
def reloads : List (Nat × Command) :=
  [(500, .forceRefresh), (1000, .reconfigure { statusIntervalMs := 300 }),
    (1400, .reconfigure { statusIntervalMs := 300, skipThreshold := 3 }),
    (1500, .displayChanged true)]

/-- The tick that is due when the period changes may be missing. -/
theorem ticks_on_schedule_reloads :
    let s := Session.start (.ofConfig {} .arm64 ⟨"", ""⟩ true) 0
    Session.Arrive 2000 reloads ∧ (∃ log, s.Clocked 2000 reloads log) ∧
      ∀ log, s.Clocked 2000 reloads log →
        ∃ ticks, ShowsTicks log ticks ∧
          (tickTimes false ticks = [0, 1300, 1600, 1900] ∨
            tickTimes false ticks = [0, 1000, 1300, 1600, 1900]) ∧
          tickTimes true ticks = [500, 1500] ∧
          ∀ ticks', ShowsTicks log ticks' → ticks'.map Prod.fst = ticks.map Prod.fst := by
  have harrive : Session.Arrive 2000 reloads := ⟨by decide, by decide⟩
  obtain ⟨hexists, hschedule⟩ :=
    @ticks_on_schedule {} .arm64 ⟨"", ""⟩ true 0 2000 reloads harrive
  refine ⟨harrive, hexists, ?_⟩
  intro log run
  obtain ⟨ticks, hshows, ⟨before, after, hticks, hbefore, hafter⟩, hforced⟩ := hschedule log run
  have hlast : after = [1300, 1600, 1900] := by
    rcases hafter with hafter | ⟨k, hk, -⟩
    · exact hafter
    · change 2000 = 1000 + 300 + k * 300 at hk
      omega
  refine ⟨ticks, hshows, ?_, hforced⟩
  rw [hticks, hlast]
  rcases hbefore with hbefore | ⟨-, -, hbefore⟩
  · left
    rw [hbefore]
    rfl
  · right
    rw [hbefore]
    rfl

end Overseer
