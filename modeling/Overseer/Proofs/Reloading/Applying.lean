import Overseer.Proofs.Cadence.Sampling

/-!
Polling settings in effect.

A session obeys polling settings from its start (`Session.obeys_start`), and afterwards the newest
ones that it was given: neither ticks nor switches of the screen change them
(`Session.Obeys.handle`).
-/

namespace Overseer

open Program

/-- The settings that a command carries. -/
def Command.polling? : Command → Option Config.Polling
  | .reconfigure polling => some polling
  | _ => none

/-- The settings to obey after some commands. -/
def settingsAfter (polling : Config.Polling) (commands : List Command) : Config.Polling :=
  commands.foldl (fun polling command => command.polling?.getD polling) polling

@[simp] theorem settingsAfter_nil (polling : Config.Polling) : settingsAfter polling [] = polling :=
  rfl

@[simp] theorem settingsAfter_cons (polling : Config.Polling) (command : Command)
    (commands : List Command) :
    settingsAfter polling (command :: commands) =
      settingsAfter (command.polling?.getD polling) commands :=
  rfl

@[simp] theorem settingsAfter_append (polling : Config.Polling) (first second : List Command) :
    settingsAfter polling (first ++ second) = settingsAfter (settingsAfter polling first) second :=
  List.foldl_append

/-! ### Ticks -/

namespace Poller

/-- The settings that no cadence holds are the same. -/
structure SamePace (p p' : Poller) : Prop where
  interval : p'.interval = p.interval
  notifyOnNotices : p'.notifyOnNotices = p.notifyOnNotices

variable {p p' : Poller} {trace : List (Exchange Effects)}

theorem SamePace.trans {p'' : Poller} (h : p.SamePace p') (h' : p'.SamePace p'') :
    p.SamePace p'' :=
  ⟨h'.interval.trans h.interval, h'.notifyOnNotices.trans h.notifyOnNotices⟩

theorem setUp_samePace (p : Poller) : Ensures p.setUp fun _ (_, p') => p.SamePace p' := by
  refine Ensures.bind (.self (p.plan.run _)) ?_
  rintro trace ⟨ok, a⟩ -
  exact Ensures.done ⟨rfl, rfl⟩

theorem conclude_samePace (p : Poller) (answers : Answers) :
    Ensures (p.conclude answers) fun _ (_, p') => p.SamePace p' := by
  unfold conclude
  cases answers.assemble p.status.notices with
  | none => exact Ensures.done ⟨rfl, rfl⟩
  | some made =>
    refine Ensures.bind (p.publish_ensures made.1 made.2) ?_
    rintro trace p' ⟨time, rfl, -⟩
    exact Ensures.done ⟨rfl, rfl⟩

theorem minimalRead_samePace (p : Poller) :
    Ensures p.minimalRead fun _ (_, p') => p.SamePace p' := by
  refine Ensures.question fun answer => ?_
  cases answer with
  | error e => exact Ensures.done ⟨rfl, rfl⟩
  | ok status =>
    refine Ensures.bind (p.applyLocks_ensures status) ?_
    rintro trace p' ⟨hframe, -⟩
    refine Ensures.done ?_
    rw [hframe]
    exact ⟨rfl, rfl⟩

theorem fullRead_samePace (p : Poller) : Ensures p.fullRead fun _ (_, p') => p.SamePace p' := by
  rw [fullRead_eq]
  refine Ensures.bind (ask_ensures _) ?_
  rintro first answers -
  refine Ensures.bind (p.derive_ensures answers.status) ?_
  rintro second q ⟨locks, computing, hq, -⟩
  have hsame : p.SamePace q := by
    rw [hq]
    exact ⟨rfl, rfl⟩
  exact (q.conclude_samePace answers).mono fun _ _ h => hsame.trans h

theorem read_samePace {kind : ReadKind} {result : Except TickError Unit}
    (h : Follows (p.read kind) trace (result, p')) : p.SamePace p' := by
  cases kind with
  | minimal => exact p.minimalRead_samePace h
  | full => exact p.fullRead_samePace h

/-- A tick keeps the settings, -/
theorem Ticked.samePace {outcome : Except TickError TickOutcome}
    (h : p.Ticked trace outcome p') : p.SamePace p' := by
  cases h with
  | unready looked failed => exact p.setUp_samePace failed
  | @alive look report rest cadence kind result p' looked reported answered =>
    have hpaced : p.SamePace { p with cadence } := ⟨rfl, rfl⟩
    exact hpaced.trans (read_samePace answered)
  | @ready look setup report rest q cadence kind result p' looked prepared reported answered =>
    have hpaced : q.SamePace { q with cadence } := ⟨rfl, rfl⟩
    exact (p.setUp_samePace prepared).trans (hpaced.trans (read_samePace answered))

/-- and so does its part in the cadence. -/
theorem tick_threshold (p : Poller) (force : Bool) :
    Ensures (p.tick force) fun _ (_, p') => p'.cadence.threshold = p.cadence.threshold := by
  refine (p.tick_regular force).mono ?_
  rintro trace ⟨outcome, p'⟩ hregular
  exact hregular.sets.threshold

end Poller

/-! ### Wakes -/

namespace Session

/-- A session paced by polling settings. -/
structure Obeys (s : Session) (polling : Config.Polling) : Prop where
  interval : s.poller.interval = polling.interval
  period : s.ticker.period = polling.interval
  threshold : s.poller.cadence.threshold = polling.skipThreshold
  notify : s.poller.notifyOnNotices = polling.notifyOnNotices

variable {s : Session} {polling : Config.Polling}

/-- A session starts with the settings of its configuration. -/
theorem obeys_start (config : Config) (platform : Platform) (host : HostIdentity)
    (displayOn : Bool) (now : Nat) :
    (start (.ofConfig config platform host displayOn) now).Obeys config.polling :=
  ⟨rfl, rfl, rfl, rfl⟩

/-- New settings take the place of those before. -/
theorem Obeys.withSettings (h : s.Obeys polling) (now : Nat) (next : Config.Polling) :
    (s.withSettings now next).Obeys next where
  interval := rfl
  period := by
    unfold Session.withSettings
    by_cases hsame : next.interval = s.poller.interval
    · simp only [if_pos hsame]
      rw [h.period, hsame, h.interval]
    · simp only [if_neg hsame]
      rfl
  threshold := rfl
  notify := rfl

theorem Obeys.tick (h : s.Obeys polling) (force : Bool) :
    Ensures (s.tick force) fun _ s' => s'.Obeys polling := by
  have htick := (s.poller.tick_ensures force).and (s.poller.tick_threshold force)
  refine Ensures.bind htick ?_
  rintro trace ⟨outcome, p'⟩ ⟨hticked, hthreshold⟩
  obtain ⟨hinterval, hnotify⟩ := hticked.samePace
  exact Ensures.done {
    interval := hinterval.trans h.interval
    period := h.period
    threshold := hthreshold.trans h.threshold
    notify := hnotify.trans h.notify }

/-- After a wake a session obeys the settings that it was given, and otherwise the ones before. -/
theorem Obeys.handle {now : Nat} {wake : Wake} {action : Action Session} (h : s.Obeys polling)
    (hhandle : s.handle now wake = some action) :
    Ensures action fun _ s' =>
      s'.Obeys (match wake with
        | .tick => polling
        | .command command => command.polling?.getD polling) := by
  cases wake with
  | tick =>
    cases hhandle
    have hfired : Obeys { s with ticker := s.ticker.fired now } polling :=
      ⟨h.interval, h.period, h.threshold, h.notify⟩
    exact hfired.tick false
  | command command =>
    cases command with
    | forceRefresh =>
      cases hhandle
      exact h.tick true
    | displayChanged on =>
      have hswitched : Obeys { s with poller := s.poller.setScreen on } polling :=
        ⟨h.interval, h.period, h.threshold, h.notify⟩
      cases hhandle
      cases on with
      | true => exact hswitched.tick true
      | false => exact Ensures.done hswitched
    | reconfigure next =>
      rw [handle_reconfigure] at hhandle
      cases hhandle
      exact Ensures.done (h.withSettings now next)
    | shutdown => cases hhandle

end Session

end Overseer
