import Overseer.Proofs.Display.Readings
import Overseer.Proofs.Display.Reports
import Overseer.Proofs.Polling.Turns
import Overseer.Proofs.Throughout
import Overseer.Scenario.Monitors
import Overseer.Supervisor

/-!
Switches of the display, from the backlights to the worker.

`Blanking` holds three copies of the state of the display and what is on its way between them: the
monitor of the backlights, the events and commands in their queues, and the poller. Everything that
happens is a step of one party (`Blanking.Step`), in any order; a monitor on a timeline takes such
steps (`Blanking.exists_runs_pollFrom`). `Blanking.Tracks` is what every step keeps: what the poller
was told, followed by what is on its way to it, is what the monitor announced. Once nothing is on
its way, the poller has the display as it was last read, and so it is reported all along
(`Blanking.display_agreed`).
-/

namespace Overseer

open Program

/-- A poll of the backlights: the files at that time, and the switch that was announced, if any. -/
structure Sighting where
  tree : Tree
  announced? : Option Bool

/-- What the files at that time tell of the display. -/
def Sighting.reading (dir : Path) (p : Sighting) : Option Bool :=
  (Tree.run (Display.read dir) p.tree).1

/-- A poll is right, given the state that was announced last: the power attributes decide its
reading in whatever order they are listed, and it announces a reading that differs. -/
structure Sighting.Right (dir : Path) (known : Bool) (p : Sighting) : Prop where
  told : Display.Tells (Display.Shows dir p.tree) (p.reading dir)
  unordered : ∀ tree, Display.Relisted dir p.tree tree →
    (Tree.run (Display.read dir) tree).1 = p.reading dir
  announced : ∀ on, p.announced? = some on ↔ p.reading dir = some on ∧ on ≠ known

/-- The monitor of the display, the supervisor's queues and its poller. -/
structure Blanking where
  /-- The state that the monitor knows. -/
  known : Bool
  events : List Event
  /-- Events still become commands. -/
  forwarding : Bool
  commands : List Command
  session : Session

namespace Blanking

/-- A supervisor that has just started. -/
def start (startup : Startup) (platform : Platform) (host : HostIdentity) (now : Nat) :
    Blanking where
  known := startup.displayOn
  events := []
  forwarding := true
  commands := []
  session := .start (startup.poller platform host) now

/-- What shows of a step. -/
inductive Activity where
  | polled (p : Sighting)
  | woke (wake : Wake) (turn : Turn)
  | other

/-- One step of the monitor, the other sources of events, the supervisor or the poller. -/
inductive Step (dir : Path) (s : Blanking) : Activity → Blanking → Prop where
  /-- The monitor polls the backlights, whatever has become of them. -/
  | polled (tree : Tree) {known : Bool} {announced? : Option Bool}
      (made : Display.observe s.known (Tree.run (Display.read dir) tree).1 = (known, announced?)) :
      Step dir s (.polled ⟨tree, announced?⟩)
        { s with known, events := s.events ++ announced?.toList.map .displayChanged }
  /-- Something else happens. -/
  | raised (event : Event) (foreign : event.command.switch? = none) :
      Step dir s .other { s with events := s.events ++ [event] }
  /-- An event becomes a command; after a shutdown none does. -/
  | forwarded {event : Event} {rest : List Event} (queued : s.events = event :: rest)
      (forwards : s.forwarding = true) :
      Step dir s .other
        { s with
          events := rest
          commands := s.commands ++ [event.command]
          forwarding := event.command != .shutdown }
  /-- The poller ticks. -/
  | ticked {now : Nat} {action : Action Session} {trace : List (Exchange Effects)}
      {session : Session} (handled : s.session.handle now .tick = some action)
      (followed : Follows action trace session) :
      Step dir s (.woke .tick ⟨s.session, trace, session⟩) { s with session }
  /-- The poller takes a command. -/
  | commanded {command : Command} {rest : List Command} {now : Nat} {action : Action Session}
      {trace : List (Exchange Effects)} {session : Session}
      (queued : s.commands = command :: rest)
      (handled : s.session.handle now (.command command) = some action)
      (followed : Follows action trace session) :
      Step dir s (.woke (.command command) ⟨s.session, trace, session⟩)
        { s with session, commands := rest }
  /-- The poller is told to stop. -/
  | stopped {rest : List Command} (queued : s.commands = .shutdown :: rest) :
      Step dir s .other { s with commands := rest }

/-- Any number of steps, with what shows of them. -/
inductive Runs (dir : Path) (s : Blanking) : List Activity → Blanking → Prop where
  | start : Runs dir s [] s
  | step {s' s'' : Blanking} {activities : List Activity} {activity : Activity}
      (run : Runs dir s activities s') (step : Step dir s' activity s'') :
      Runs dir s (activities ++ [activity]) s''

/-! ### Views of a run -/

/-- The switch that was announced. -/
@[simp] def Activity.announced? : Activity → Option Bool
  | .polled p => p.announced?
  | _ => none

/-- The reading that told something. -/
@[simp] def Activity.reading? (dir : Path) : Activity → Option Bool
  | .polled p => p.reading dir
  | _ => none

/-- The switch that the poller was told of. -/
@[simp] def Activity.handled? : Activity → Option Bool
  | .woke wake _ => wake.switch?
  | _ => none

/-- The switches that were announced, in order. -/
def announced (activities : List Activity) : List Bool :=
  activities.filterMap Activity.announced?

/-- The readings that told something, in order. -/
def readings (dir : Path) (activities : List Activity) : List Bool :=
  activities.filterMap (Activity.reading? dir)

/-- The switches that the poller was told of, in order. -/
def handled (activities : List Activity) : List Bool :=
  activities.filterMap Activity.handled?

/-- The switches that are on their way to the poller. -/
def waiting (s : Blanking) : List Bool :=
  (s.commands ++ s.events.map Event.command).filterMap Command.switch?

section

variable {α β : Type}

theorem filterMap_concat (f : α → Option β) (entries : List α) (e : α) :
    (entries ++ [e]).filterMap f = entries.filterMap f ++ (f e).toList := by
  rw [List.filterMap_append]
  cases h : f e with
  | none => simp [h]
  | some b => simp [h]

/-- The last of some values, when there may be one more. -/
theorem getLastD_append_toList (values : List α) (more? : Option α) (first : α) :
    (values ++ more?.toList).getLastD first = more?.getD (values.getLastD first) := by
  cases more? with
  | none => simp
  | some a => simp

end

section

variable (dir : Path) (activities : List Activity) (activity : Activity)

@[simp] theorem announced_concat :
    announced (activities ++ [activity]) = announced activities ++ activity.announced?.toList :=
  filterMap_concat _ _ _

@[simp] theorem readings_concat :
    readings dir (activities ++ [activity]) =
      readings dir activities ++ (activity.reading? dir).toList :=
  filterMap_concat _ _ _

@[simp] theorem handled_concat :
    handled (activities ++ [activity]) = handled activities ++ activity.handled?.toList :=
  filterMap_concat _ _ _

end

/-! ### What every step keeps -/

/-- A wake is right, given what came before it: the poller holds the state that it was told last,
and reports it. -/
structure WokeRight (initial : Bool) (before : List Activity) (wake : Wake) (turn : Turn) :
    Prop where
  before : turn.before.screenOn = (handled before).getLastD initial
  after : turn.after.screenOn = wake.switch?.getD turn.before.screenOn
  reports : ReportsScreen turn.after.screenOn turn.trace

/-- What happens is right, given what came before it. -/
def Activity.Right (dir : Path) (initial : Bool) (before : List Activity) : Activity → Prop
  | .polled p => p.Right dir ((announced before).getLastD initial)
  | .woke wake turn => WokeRight initial before wake turn
  | .other => True

/-- The monitor and the poller, up to what is on its way between them. -/
structure Tracks (dir : Path) (initial : Bool) (activities : List Activity) (s : Blanking) :
    Prop where
  right : Throughout (Activity.Right dir initial) activities
  /-- Each announced switch differs from the one before it, the first one from the initial state. -/
  alternating : (initial :: announced activities).IsChain (· ≠ ·)
  /-- The monitor knows what it announced last, -/
  known_announced : s.known = (announced activities).getLastD initial
  /-- and what it read last. -/
  known_read : s.known = (readings dir activities).getLastD initial
  /-- No switch is lost, and none is made up. -/
  delivered : handled activities ++ s.waiting = announced activities
  screen : s.session.screenOn = (handled activities).getLastD initial

namespace Tracks

variable {dir : Path} {initial : Bool} {activities : List Activity} {activity : Activity}
  {s s' : Blanking}

theorem start (dir : Path) (startup : Startup) (platform : Platform) (host : HostIdentity)
    (now : Nat) :
    Tracks dir startup.displayOn [] (Blanking.start startup platform host now) where
  right := throughout_nil
  alternating := List.isChain_singleton _
  known_announced := rfl
  known_read := rfl
  delivered := rfl
  screen := rfl

variable (h : Tracks dir initial activities s)

include h

theorem polled (tree : Tree) {known : Bool} {announced? : Option Bool}
    (made : Display.observe s.known (Tree.run (Display.read dir) tree).1 = (known, announced?)) :
    Tracks dir initial (activities ++ [.polled ⟨tree, announced?⟩])
      { s with known, events := s.events ++ announced?.toList.map .displayChanged } := by
  let reading := (Tree.run (Display.read dir) tree).1
  have hannounces := Display.observe_announces s.known reading
  have hannounced := Display.observe_known_announced s.known reading
  have hread := Display.observe_known_read s.known reading
  rw [made] at hannounces hannounced hread
  refine {
    right := throughout_concat.mpr ⟨h.right, ?_⟩
    alternating := ?_
    known_announced := ?_
    known_read := ?_
    delivered := ?_
    screen := ?_ }
  · refine ⟨Display.read_tells dir tree, fun tree' hrelisted => hrelisted.reading_eq, ?_⟩
    rw [← h.known_announced]
    exact hannounces
  · rw [announced_concat]
    cases announced? with
    | none => simpa using h.alternating
    | some on =>
      refine isChain_concat h.alternating ?_
      rw [← h.known_announced]
      exact ((hannounces on).mp rfl).2.symm
  · rw [announced_concat, getLastD_append_toList, ← h.known_announced]
    exact hannounced
  · rw [readings_concat, getLastD_append_toList, ← h.known_read]
    exact hread
  · rw [handled_concat, announced_concat, ← h.delivered]
    cases announced? <;> simp [waiting, Event.command, Command.switch?]
  · simpa using h.screen

/-- Steps that nobody sees leave alone what the monitor knows, the switches on their way and the
poller. -/
theorem other (hknown : s'.known = s.known) (hwaiting : s'.waiting = s.waiting)
    (hsession : s'.session = s.session) : Tracks dir initial (activities ++ [.other]) s' where
  right := throughout_concat.mpr ⟨h.right, trivial⟩
  alternating := by simpa using h.alternating
  known_announced := by simpa [hknown] using h.known_announced
  known_read := by simpa [hknown] using h.known_read
  delivered := by simpa [hwaiting] using h.delivered
  screen := by simpa [hsession] using h.screen

/-- The poller wakes up; what it is told is on its way no longer. -/
theorem woke {now : Nat} {wake : Wake} {action : Action Session} {trace : List (Exchange Effects)}
    {session : Session} {commands : List Command}
    (hhandle : s.session.handle now wake = some action) (hfollows : Follows action trace session)
    (htaken : s.commands.filterMap Command.switch? =
      wake.switch?.toList ++ commands.filterMap Command.switch?) :
    Tracks dir initial (activities ++ [.woke wake ⟨s.session, trace, session⟩])
      { s with session, commands } := by
  obtain ⟨hscreen, hreports⟩ := Session.handle_reports hhandle hfollows
  refine {
    right := throughout_concat.mpr ⟨h.right, h.screen, hscreen, hreports⟩
    alternating := by simpa using h.alternating
    known_announced := by simpa using h.known_announced
    known_read := by simpa using h.known_read
    delivered := ?_
    screen := ?_ }
  · rw [handled_concat, announced_concat, ← h.delivered]
    simp [waiting, htaken]
  · rw [handled_concat, getLastD_append_toList, ← h.screen]
    exact hscreen

theorem step (hstep : s.Step dir activity s') :
    Tracks dir initial (activities ++ [activity]) s' := by
  cases hstep with
  | polled tree made => exact h.polled tree made
  | raised event foreign => exact h.other rfl (by simp [waiting, foreign]) rfl
  | forwarded queued forwards => exact h.other rfl (by simp [waiting, queued]) rfl
  | ticked handled followed => exact h.woke handled followed rfl
  | @commanded command rest now action trace session queued handled followed =>
    refine h.woke handled followed ?_
    rw [queued, List.filterMap_cons, Wake.switch?]
    cases command.switch? <;> rfl
  | stopped queued =>
    refine h.other rfl ?_ rfl
    rw [waiting, waiting, queued]
    rfl

end Tracks

theorem Runs.tracks {dir : Path} {initial : Bool} {activities : List Activity} {s s' : Blanking}
    (run : s.Runs dir activities s') (h : Tracks dir initial [] s) :
    Tracks dir initial activities s' := by
  induction run with
  | start => exact h
  | step run step ih => exact ih.step step

/-! ### On a timeline -/

section

variable {dir : Path} {s s' s'' : Blanking} {first second : List Activity}

theorem Runs.trans (h : s.Runs dir first s') (h' : s'.Runs dir second s'') :
    s.Runs dir (first ++ second) s'' := by
  induction h' with
  | start => rwa [List.append_nil]
  | step run step ih =>
    rw [← List.append_assoc]
    exact .step ih step

open Scenario.DisplayMonitor in
/-- A monitor on a timeline, with a receiver that stays, polls as the steps say. -/
theorem exists_runs_pollFrom (dir : Path) (period time count : Nat) (tree : Tree)
    (changes : List Change) (polls : Nat) (s : Blanking) :
    ∃ activities s', s.Runs dir activities s' ∧ activities.length = polls ∧
      (∀ activity ∈ activities, ∃ p, activity = .polled p) ∧
      announced activities =
        (pollFrom dir period none time count s.known tree changes polls).events.map Prod.snd := by
  induction polls generalizing time count tree changes s with
  | zero => exact ⟨[], s, .start, rfl, List.forall_mem_nil _, rfl⟩
  | succ polls ih =>
    unfold pollFrom
    generalize filesAt time tree changes = found
    obtain ⟨files, later⟩ := found
    dsimp only
    cases hmade : Display.observe s.known (Tree.run (Display.read dir) files).1 with
    | mk known announced? =>
      let next : Blanking :=
        { s with known, events := s.events ++ announced?.toList.map .displayChanged }
      have hpoll : s.Runs dir [.polled ⟨files, announced?⟩] next :=
        .step .start (.polled files hmade)
      cases announced? with
      | none =>
        obtain ⟨activities, s', hrun, hlength, hpolls, hannounced⟩ :=
          ih (time + period) count files later next
        refine ⟨_, s', hpoll.trans hrun, by simp [hlength], ?_, ?_⟩
        · exact List.forall_mem_cons.mpr ⟨⟨_, rfl⟩, hpolls⟩
        · exact hannounced
      | some on =>
        obtain ⟨activities, s', hrun, hlength, hpolls, hannounced⟩ :=
          ih (time + period) (count + 1) files later next
        refine ⟨_, s', hpoll.trans hrun, by simp [hlength], ?_, ?_⟩
        · exact List.forall_mem_cons.mpr ⟨⟨_, rfl⟩, hpolls⟩
        · exact congrArg (on :: ·) hannounced

end

/-! ### Agreement -/

/-- All that a supervisor knows of the display fits together. -/
structure Agreed (dir : Path) (initial : Bool) (activities : List Activity) (s : Blanking) : Prop
    extends Tracks dir initial activities s where
  settled : s.waiting = [] → s.session.screenOn = (readings dir activities).getLastD initial

/-- However polls of the backlights, other events, forwarding and wakes of the poller are
interleaved, and whatever becomes of the backlights between the polls: the monitor announces what
differs from what it knew, and in the end the poller has the display as it was read last. -/
theorem display_agreed {startup : Startup} {platform : Platform} {host : HostIdentity} {now : Nat}
    {activities : List Activity} {s : Blanking}
    (run : (start startup platform host now).Runs startup.config.display.backlightDir
      activities s) :
    Agreed startup.config.display.backlightDir startup.displayOn activities s := by
  have htracks := run.tracks (.start _ startup platform host now)
  refine { toTracks := htracks, settled := ?_ }
  intro hnone
  have hall : handled activities = announced activities := by
    rw [← htracks.delivered, hnone, List.append_nil]
  rw [htracks.screen, hall, ← htracks.known_announced]
  exact htracks.known_read

/-- A supervisor that finds the display on, with a place of its own for the backlights. -/
def litStartup : Startup := ⟨⟨""⟩, { display := { backlightDir := ⟨"/backlight"⟩ } }, true⟩

/-- The backlights appear, one of them is blanked and so is the other one then, and after all is
settled the poller reports a display that is off. -/
theorem display_agreed_blanked :
    ∃ activities s,
      (start litStartup .arm64 ⟨"", ""⟩ 0).Runs litStartup.config.display.backlightDir
        activities s ∧
      s.waiting = [] ∧ announced activities = [false] ∧ s.session.screenOn = false ∧
      (∃ wake turn, .woke wake turn ∈ activities ∧
        ∃ device, .reportDevice device ∈ requests turn.trace) ∧
      Agreed litStartup.config.display.backlightDir litStartup.displayOn activities s := by
  let half := Display.backlights [("left", "0\n"), ("right", "4\n")]
  let dark := Display.backlights [("left", "4\n"), ("right", "4\n")]
  have hstart : (start litStartup .arm64 ⟨"", ""⟩ 0).Runs
      litStartup.config.display.backlightDir [] _ := .start
  have hnone : (Tree.run (Display.read ⟨"/backlight"⟩) .empty).1 = none := by decide +kernel
  have hhalf : (Tree.run (Display.read ⟨"/backlight"⟩) half).1 = some true := by decide +kernel
  have hdark : (Tree.run (Display.read ⟨"/backlight"⟩) dark).1 = some false := by decide +kernel
  have hpolled := ((hstart.step (.polled .empty (congrArg _ hnone))).step
    (.polled half (congrArg _ hhalf))).step (.polled dark (congrArg _ hdark))
  have hoff (s : Session) : s.handle 0 (.command (.displayChanged false)) =
      some (pure { s with poller := s.poller.setScreen false }) := rfl
  have htick (s : Session) : s.handle 0 .tick =
      some ({ s with ticker := s.ticker.fired 0 }.tick false) := rfl
  have htold := (hpolled.step (.forwarded rfl rfl)).step (.commanded rfl (hoff _) (.done _))
  have hrun := htold.step (.ticked (htick _) (follows_converse (fun _ => Effect.plain) [] _))
  refine ⟨_, _, hrun, rfl, rfl, ?_, ⟨_, _, List.mem_concat_self, ?_⟩, display_agreed hrun⟩
  · decide +kernel
  · refine by_contra fun hnone => absurd (reportAccepted_eq_false (not_exists.mp hnone)) ?_
    decide +kernel

end Blanking

end Overseer
