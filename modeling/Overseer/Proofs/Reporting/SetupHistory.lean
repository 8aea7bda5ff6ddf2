import Overseer.Proofs.Preparing.Posts
import Overseer.Proofs.Reporting.Observing

/-!
What observers are told of the setup status.

An attempt to set up posts that it begins and how it ended, and its preferences in between
(`SetupPlan.run_posts`). An event is sent only if the status changes, so nothing is told of the
beginning of the first attempt, and of every later attempt two things are (`SetupStatus.told`).
Whatever else happens on the board, the setup statuses that observers are told of are those of the
attempts so far (`Observing.History`). `Observing.setup_history` is the main statement.
-/

namespace Overseer

open Program

/-! ### What attempts tell -/

namespace SetupStatus

/-- What is told of attempts that ended in these ways: how each of them ended, and that it begins
of all but the first. -/
def told : List Bool → List SetupStatus
  | [] => []
  | ok :: rest => ofOutcome ok :: rest.flatMap fun ok => [.launching, ofOutcome ok]

/-- What is told of the beginning of an attempt that comes after others, if any. -/
def relaunch (outcomes : List Bool) : List SetupStatus :=
  if outcomes = [] then [] else [.launching]

/-- Results and launching by turns. -/
def ByTurns (statuses : List SetupStatus) : Prop :=
  statuses.IsChain fun status next => status = .launching ↔ next ≠ .launching

variable (outcomes : List Bool) (ok : Bool)

theorem ofOutcome_ne : ofOutcome ok ≠ .launching := by
  cases ok <;> exact nofun

theorem told_concat :
    told (outcomes ++ [ok]) = told outcomes ++ relaunch outcomes ++ [ofOutcome ok] := by
  cases outcomes with
  | nil => rfl
  | cons first rest => simp [told, relaunch]

@[simp] theorem told_eq_nil_iff : told outcomes = [] ↔ outcomes = [] := by
  cases outcomes <;> simp [told]

/-- Between attempts the status is a result, if there was an attempt. -/
theorem getLastD_told : (told outcomes).getLastD .launching = .launching ↔ outcomes = [] := by
  rcases List.eq_nil_or_concat' outcomes with rfl | ⟨before, last, rfl⟩
  · simp [told]
  · simp [told_concat, ofOutcome_ne]

/-- Statuses by turns stay so when a further attempt begins. -/
theorem byTurns_told_relaunch (h : ByTurns (.launching :: told outcomes)) :
    ByTurns (.launching :: (told outcomes ++ relaunch outcomes)) := by
  by_cases hfirst : outcomes = []
  · subst hfirst
    exact h
  · rw [relaunch, if_neg hfirst]
    have hresult := mt (getLastD_told outcomes).mp hfirst
    exact isChain_concat h (by simpa using hresult)

/-- What is told starts with a result, as if launching had been told before, and goes on by
turns. -/
theorem byTurns_told : ByTurns (.launching :: told outcomes) := by
  induction outcomes using List.reverseRecOn with
  | nil => exact List.isChain_singleton _
  | append_singleton before ok ih =>
    have hlast : (told before ++ relaunch before).getLastD .launching = .launching := by
      by_cases hfirst : before = [] <;> simp [told, relaunch, hfirst]
    rw [told_concat]
    refine isChain_concat (byTurns_told_relaunch before ih) ?_
    rw [hlast]
    simpa using ofOutcome_ne ok

end SetupStatus

/-! ### Single changes -/

/-- A change tells of the setup status if it is about it and changes it. -/
theorem StatusChange.told (change : StatusChange) (s : Snapshot) :
    (change.event? s).toList.filterMap StatusEvent.setup? =
      (change.setup?.filter fun status => s.setup ≠ status).toList := by
  cases change with
  | setup status =>
    by_cases hsame : s.setup = status
    · simp [event?, setup?, hsame]
    · simp [event?, setup?, hsame, StatusEvent.setup?, Option.filter]
  | publish read time => rfl
  | preferences preferences => rfl
  | computing computing => rfl
  | notices count =>
    by_cases hcount : 0 < count
    · simp [event?, setup?, StatusEvent.setup?, hcount]
    · simp [event?, setup?, hcount]

/-- A change about the setup status sets it, and every other change leaves it. -/
theorem StatusChange.setup_apply (change : StatusChange) (s : Snapshot) :
    (change.apply s).setup = change.setup?.getD s.setup := by
  cases change <;> rfl

namespace Observing

open SetupStatus

/-! ### What every step preserves -/

/-- How far an attempt is: the setup statuses that it will still set, what observers were told of so
far, or will be told of by events under way, and the status that shows. -/
inductive Phase (outcomes : List Bool) :
    Option (List SetupStatus × Bool) → List SetupStatus → SetupStatus → Prop where
  | idle : Phase outcomes none (told outcomes) ((told outcomes).getLastD .launching)
  | begun (ok : Bool) :
      Phase outcomes (some ([.launching, .ofOutcome ok], ok)) (told outcomes)
        ((told outcomes).getLastD .launching)
  | launching (ok : Bool) :
      Phase outcomes (some ([.ofOutcome ok], ok)) (told outcomes ++ relaunch outcomes) .launching
  | recorded (ok : Bool) :
      Phase outcomes (some ([], ok)) (told (outcomes ++ [ok])) (.ofOutcome ok)

/-- The setup statuses that the attempt under way will still set, and how it ends. -/
def left (s : Observing) : Option (List SetupStatus × Bool) :=
  s.attempt.map fun attempt => (attempt.1.filterMap StatusChange.setup?, attempt.2)

/-- Of an attempt, observers are told how it ended, and that it began if it is not the first. -/
def OneResult (before : List Activity) (activity : Activity) : Prop :=
  ∀ ok, activity = .ended ok → ∃ earlier during, before = earlier ++ .began :: during ∧
    .began ∉ during ∧
    statuses during = (if statuses earlier = [] then [] else [.launching]) ++ [.ofOutcome ok]

/-- What observers were told of the setup status is what the attempts tell. -/
structure History (activities : List Activity) (s : Observing) : Prop where
  phase : Phase (outcomes activities) s.left (statuses activities ++ s.untold)
    s.board.snapshot.setup
  /-- No two events of setup statuses are under way at a time. -/
  single : s.untold.length ≤ 1
  settled : s.attempt = none → s.untold = []
  begun : s.attempt ≠ none → ∃ earlier during, activities = earlier ++ .began :: during ∧
    .began ∉ during ∧ statuses earlier = told (outcomes activities)
  attempts : Throughout OneResult activities

/-- An attempt sets the next status: it is told of if it is not the one that shows. -/
theorem Phase.set {outcomes : List Bool} {status shown : SetupStatus}
    {rest told : List SetupStatus} {ok : Bool}
    (h : Phase outcomes (some (status :: rest, ok)) told shown) :
    Phase outcomes (some (rest, ok)) (told ++ if shown = status then [] else [status]) status := by
  cases h with
  | begun ok =>
    simp only [getLastD_told]
    exact .launching ok
  | launching ok =>
    rw [if_neg (ofOutcome_ne ok).symm, ← told_concat]
    exact .recorded ok

section Steps

variable {activities : List Activity} {activity : Activity} {s s' : Observing}

theorem statuses_concat_of_none (h : activity.announcement? = none) :
    statuses (activities ++ [activity]) = statuses activities := by
  rw [statuses, announcements_concat, h, Option.toList_none, List.append_nil]
  rfl

theorem untold_alter (s : Observing) (change : StatusChange) :
    (s.alter change).untold =
      s.untold ++ (change.setup?.filter fun status => s.board.snapshot.setup ≠ status).toList := by
  rw [← change.told, untold, alter, List.filterMap_append, List.filterMap_map]
  rfl

theorem setup_alter (s : Observing) (change : StatusChange) :
    (s.alter change).board.snapshot.setup = change.setup?.getD s.board.snapshot.setup :=
  change.setup_apply _

/-- As long as at most one is under way, statuses are told in the order in which they were set. -/
theorem untold_erase {number : Nat} {event : StatusEvent} (single : s.untold.length ≤ 1)
    (unsent : (number, event) ∈ s.unsent) :
    s.untold = event.setup?.toList ++
      (s.unsent.erase (number, event)).filterMap fun e => e.2.setup? := by
  have hperm := (List.perm_cons_erase unsent).filterMap fun e : Nat × StatusEvent => e.2.setup?
  have hcons : ((number, event) :: s.unsent.erase (number, event)).filterMap
      (fun e : Nat × StatusEvent => e.2.setup?) =
      event.setup?.toList ++ (s.unsent.erase (number, event)).filterMap fun e => e.2.setup? := by
    cases h : event.setup? <;> simp [h]
  rw [hcons] at hperm
  change s.untold.Perm _ at hperm
  rcases huntold : s.untold with - | ⟨status, - | ⟨_, _⟩⟩
  · rw [huntold] at hperm
    exact hperm.nil_eq
  · rw [huntold] at hperm
    exact (List.perm_singleton.mp hperm.symm).symm
  · simp [huntold] at single

/-- What is told next was the next to be told. -/
theorem told_announced (activities : List Activity) {number : Nat} {event : StatusEvent}
    (single : s.untold.length ≤ 1) (unsent : (number, event) ∈ s.unsent) :
    statuses (activities ++ [.announced number event]) ++
        (s.unsent.erase (number, event)).filterMap (fun e => e.2.setup?) =
      statuses activities ++ s.untold := by
  rw [untold_erase single unsent, statuses_append, List.append_assoc]
  rfl

namespace History

theorem start : History [] {} where
  phase := .idle
  single := Nat.zero_le _
  settled _ := rfl
  begun h := absurd rfl h
  attempts := throughout_nil

/-- A step that neither begins nor ends an attempt. -/
theorem go (history : History activities s) (hbegan : activity ≠ .began)
    (houtcome : activity.outcome? = none) (attempt : s'.attempt = none ↔ s.attempt = none)
    (phase : Phase (outcomes activities) s'.left
      (statuses (activities ++ [activity]) ++ s'.untold) s'.board.snapshot.setup)
    (single : s'.untold.length ≤ 1) (settled : s.attempt = none → s'.untold = []) :
    History (activities ++ [activity]) s' where
  phase := by
    rw [outcomes_concat, houtcome, Option.toList_none, List.append_nil]
    exact phase
  single := single
  settled h := settled (attempt.mp h)
  begun := by
    intro hattempt
    obtain ⟨earlier, during, rfl, hduring, hearlier⟩ := history.begun (mt attempt.mpr hattempt)
    refine ⟨earlier, during ++ [activity], by simp, ?_, ?_⟩
    · simpa [hduring] using hbegan.symm
    · rw [outcomes_concat, houtcome, Option.toList_none, List.append_nil]
      exact hearlier
  attempts := by
    refine throughout_concat.mpr ⟨history.attempts, ?_⟩
    rintro ok rfl
    cases houtcome

/-- What an observer does says nothing of the setup status. -/
theorem observed {position : Option Nat} (history : History activities s)
    (hbegan : activity ≠ .began) (houtcome : activity.outcome? = none)
    (hannouncement : activity.announcement? = none) :
    History (activities ++ [activity]) { s with position } := by
  refine history.go hbegan houtcome Iff.rfl ?_ history.single history.settled
  rw [statuses_concat_of_none hannouncement]
  exact history.phase

/-- An attempt begins after the last one has ended, and nothing of that one is under way. -/
theorem began {plan : SetupPlan} {a a' : Attempt} {trace : List (Exchange Effects)} {ok : Bool}
    (history : History activities s) (idle : s.attempt = none)
    (followed : Follows (plan.run a) trace (ok, a')) :
    History (activities ++ [.began]) { s with attempt := some (posts trace, ok) } where
  phase := by
    obtain ⟨read, -, hposts⟩ := plan.run_posts a followed
    have hleft : left { s with attempt := some (posts trace, ok) } =
        some ([.launching, .ofOutcome ok], ok) := by
      rw [left, hposts]
      cases read <;> rfl
    have hphase := history.phase
    rw [left, idle, Option.map_none] at hphase
    rw [hleft, statuses_concat_of_none rfl, outcomes_concat]
    change Phase _ _ (statuses activities ++ s.untold) s.board.snapshot.setup
    generalize statuses activities ++ s.untold = told, s.board.snapshot.setup = shown at hphase ⊢
    simp only [Activity.outcome?, Option.toList_none, List.append_nil]
    cases hphase
    exact .begun ok
  single := history.single
  settled h := by cases h
  begun := by
    intro _
    refine ⟨activities, [], rfl, List.not_mem_nil, ?_⟩
    have hphase := history.phase
    rw [left, idle, history.settled idle, Option.map_none, List.append_nil] at hphase
    rw [outcomes_concat]
    simp only [Activity.outcome?, Option.toList_none, List.append_nil]
    generalize statuses activities = told, s.board.snapshot.setup = shown at hphase ⊢
    cases hphase
    rfl
  attempts := throughout_concat.mpr ⟨history.attempts, nofun⟩

/-- What others change says nothing about the setup status. -/
theorem other {change : StatusChange} {attempt : Option (List StatusChange × Bool)}
    (history : History activities s) (beside : change.setup? = none)
    (hattempt : attempt = none ↔ s.attempt = none)
    (hleft : left { s.alter change with attempt } = s.left) :
    History (activities ++ [.altered change]) { s.alter change with attempt } := by
  have huntold : untold { s.alter change with attempt } = s.untold := by
    change (s.alter change).untold = s.untold
    simp [untold_alter, beside]
  have hsetup := setup_alter s change
  rw [beside, Option.getD_none] at hsetup
  refine history.go nofun rfl hattempt ?_ ?_ ?_
  · rw [huntold, hleft, statuses_concat_of_none rfl]
    change Phase _ _ _ (s.alter change).board.snapshot.setup
    rw [hsetup]
    exact history.phase
  · rw [huntold]
    exact history.single
  · rw [huntold]
    exact history.settled

/-- An attempt makes a change of its own. -/
theorem own {change : StatusChange} {rest : List StatusChange} {ok : Bool}
    (history : History activities s) (underWay : s.attempt = some (change :: rest, ok))
    (told : s.untold = []) :
    History (activities ++ [.altered change])
      { s.alter change with attempt := some (rest, ok) } := by
  cases hchange : change.setup? with
  | none =>
    refine history.other hchange (by simp [underWay]) ?_
    simp [left, underWay, hchange]
  | some status =>
    have hleft : s.left = some (status :: rest.filterMap StatusChange.setup?, ok) := by
      simp [left, underWay, hchange]
    have huntold : untold { s.alter change with attempt := some (rest, ok) } =
        if s.board.snapshot.setup = status then [] else [status] := by
      change (s.alter change).untold = _
      rw [untold_alter, told, hchange]
      by_cases hsame : s.board.snapshot.setup = status <;> simp [hsame, Option.filter]
    have hphase := history.phase
    rw [hleft, told, List.append_nil] at hphase
    refine history.go nofun rfl (by simp [underWay]) ?_ ?_ (fun h => by simp [underWay] at h)
    · rw [huntold, statuses_concat_of_none rfl]
      change Phase _ _ _ (s.alter change).board.snapshot.setup
      rw [setup_alter, hchange]
      exact hphase.set
    · rw [huntold]
      split <;> simp

theorem announced {number : Nat} {event : StatusEvent} (history : History activities s)
    (unsent : (number, event) ∈ s.unsent) :
    History (activities ++ [.announced number event])
      { s with board := s.board.send event, unsent := s.unsent.erase (number, event) } := by
  have herase := untold_erase history.single unsent
  refine history.go nofun rfl Iff.rfl ?_ ?_ ?_
  · have htold := told_announced activities history.single unsent
    change Phase _ _ (_ ++ (s.unsent.erase (number, event)).filterMap _) _
    rw [htold]
    exact history.phase
  · have hlength := congrArg List.length herase
    rw [List.length_append] at hlength
    have hsingle := history.single
    change ((s.unsent.erase (number, event)).filterMap _).length ≤ 1
    omega
  · intro hidle
    rw [history.settled hidle] at herase
    exact (List.append_eq_nil_iff.mp herase.symm).2

/-- An attempt ends with its result, which is the last thing told of it. -/
theorem ended {ok : Bool} (history : History activities s) (complete : s.attempt = some ([], ok))
    (told : s.untold = []) : History (activities ++ [.ended ok]) { s with attempt := none } := by
  have hphase := history.phase
  rw [left, complete, told, List.append_nil] at hphase
  have hrecorded : statuses activities = SetupStatus.told (outcomes activities ++ [ok]) ∧
      s.board.snapshot.setup = .ofOutcome ok := by
    generalize statuses activities = told, s.board.snapshot.setup = shown at hphase ⊢
    cases hphase
    exact ⟨rfl, rfl⟩
  obtain ⟨hstatuses, hshown⟩ := hrecorded
  refine {
    phase := ?_
    single := history.single
    settled := fun _ => told
    begun := fun h => absurd rfl h
    attempts := throughout_concat.mpr ⟨history.attempts, ?_⟩ }
  · rw [statuses_concat_of_none rfl, outcomes_concat, hstatuses]
    change Phase _ none (_ ++ s.untold) s.board.snapshot.setup
    rw [told, List.append_nil, hshown]
    have hlast : (SetupStatus.told (outcomes activities ++ [ok])).getLastD .launching =
        .ofOutcome ok := by
      simp [told_concat]
    rw [← hlast]
    exact .idle
  · intro ok' hended
    obtain rfl : ok = ok' := by simpa using hended
    obtain ⟨earlier, during, hsplit, hduring, hearlier⟩ := history.begun (by simp [complete])
    refine ⟨earlier, during, hsplit, hduring, ?_⟩
    have hsum : statuses activities = statuses earlier ++ statuses during := by
      rw [hsplit, statuses_append]
      rfl
    rw [hsum, told_concat, ← hearlier, List.append_assoc] at hstatuses
    have hresult := List.append_cancel_left hstatuses
    simpa [hearlier, relaunch] using hresult

theorem step (history : History activities s) (step : Step s activity s') :
    History (activities ++ [activity]) s' := by
  cases step with
  | began idle followed => exact history.began idle followed
  | own underWay told => exact history.own underWay told
  | other beside => exact history.other beside Iff.rfl rfl
  | announced unsent => exact history.announced unsent
  | ended complete told => exact history.ended complete told
  | subscribed => exact history.observed nofun rfl rfl
  | received waiting more => exact history.observed nofun rfl rfl
  | looked => exact history.observed nofun rfl rfl

end History

theorem Runs.history (run : Runs activities s) : History activities s := by
  induction run with
  | start => exact .start
  | step _ step ih => exact ih.step step

/-- What was told and what will be is told by turns, a result first. -/
theorem History.byTurns (history : History activities s) :
    ByTurns (.launching :: (statuses activities ++ s.untold)) := by
  have hphase := history.phase
  generalize s.left = left, statuses activities ++ s.untold = told,
    s.board.snapshot.setup = shown at hphase ⊢
  cases hphase with
  | idle => exact byTurns_told _
  | begun ok => exact byTurns_told _
  | launching ok => exact byTurns_told_relaunch _ (byTurns_told _)
  | recorded ok => exact byTurns_told _

/-- Between attempts nothing is left to be told, and the last that was told is what shows. -/
theorem History.idle (history : History activities s) (idle : s.attempt = none) :
    statuses activities = told (outcomes activities) ∧
      s.board.snapshot.setup = (statuses activities).getLastD .launching := by
  have hphase := history.phase
  rw [left, idle, history.settled idle, Option.map_none, List.append_nil] at hphase
  generalize statuses activities = told, s.board.snapshot.setup = shown at hphase ⊢
  cases hphase
  exact ⟨rfl, rfl⟩

/-- What an observer has seen was told so. -/
theorem seen_statuses (accounted : Accounted activities s) :
    (seen activities).filterMap StatusEvent.setup? <:+: statuses activities := by
  rw [statuses_eq]
  have hseen := accounted.seen.2.isInfix.trans (List.take_prefix ..).isInfix
  exact hseen.filterMap _

end Steps

/-- The setup status as observers hear of it and see it. -/
structure SetupTold (activities : List Activity) (s : Observing) : Prop where
  /-- Results and launching are told by turns, -/
  alternates : ByTurns (statuses activities)
  /-- a result first. -/
  starts : ∀ status ∈ (statuses activities).head?, status ≠ .launching
  /-- Between attempts, all that was told is the result of every attempt, and that it began of all
  but the first; -/
  complete : s.attempt = none → statuses activities = told (outcomes activities)
  /-- the last of it is what shows. -/
  shown : s.attempt = none →
    s.board.snapshot.setup = (statuses activities).getLastD .launching
  /-- Every attempt ends with exactly one result. -/
  attempts : Throughout OneResult activities
  /-- An observer hears of results and launching by turns, unless it misses events. -/
  seen : ByTurns ((seen activities).filterMap StatusEvent.setup?)
  /-- A snapshot is at least as new as the events received before it. -/
  asNew : Throughout ShowsAll activities

/-- Whatever else happens on the board and whenever an observer looks: results of attempts and
launching are told by turns, one result for every attempt, and between attempts the last of them is
the status that shows. -/
theorem setup_history {activities : List Activity} {s : Observing} (run : Runs activities s) :
    SetupTold activities s := by
  have hturns : ByTurns (.launching :: statuses activities) := by
    have hall := run.history.byTurns
    rw [← List.cons_append] at hall
    exact (List.isChain_append.mp hall).1
  obtain ⟨hfirst, halternates⟩ := List.isChain_cons.mp hturns
  exact {
    alternates := halternates
    starts := fun status hstatus => (hfirst status hstatus).mp rfl
    complete := fun idle => (run.history.idle idle).1
    shown := fun idle => (run.history.idle idle).2
    attempts := run.history.attempts
    seen := halternates.infix (seen_statuses run.accounted)
    asNew := run.showsAll }

/-- Surroundings in which the worker can be started or not. -/
def startable (starts : Bool) : (effect : Effect) → effect.Answer
  | .spawn _ _ _ => starts
  | effect => effect.plain

/-- Attempts end either way. -/
theorem exists_attempt (ok : Bool) : ∃ (plan : SetupPlan) (a a' : Attempt) (trace : _)
    (read : Option Preferences), Follows (plan.run a) trace (ok, a') ∧
      (read.isSome ↔ ok = true) ∧
      posts trace = [.setup .launching] ++ read.toList.map .preferences ++
        [.setup (.ofOutcome ok)] := by
  let p := Poller.ofConfig {} .arm64 ⟨"", ""⟩ true
  let action := p.plan.run ⟨p.controller, p.connection, p.status⟩
  have hfollows := follows_converse (fun _ => startable ok) [] action
  have hok : (action.converse (fun _ => startable ok) []).2.1 = ok := by
    cases ok <;> decide +kernel
  generalize action.converse (fun _ => startable ok) [] = run at hfollows hok
  obtain ⟨trace, ok', a'⟩ := run
  obtain rfl : ok' = ok := hok
  obtain ⟨read, hread, hposts⟩ := p.plan.run_posts _ hfollows
  exact ⟨_, _, _, trace, read, hfollows, hread, hposts⟩

set_option maxRecDepth 4096 in
/-- A success and a failure, with notices in between, as an observer hears of them that subscribed
at the start. -/
theorem setup_history_success_failure :
    ∃ activities s, Runs activities s ∧ outcomes activities = [true, false] ∧ s.attempt = none ∧
      seen activities = [.newNotices 1, .setupChanged .available, .setupChanged .launching,
        .setupChanged .error] ∧
      s.board.snapshot.setup = .error ∧ SetupTold activities s := by
  obtain ⟨plan, a, a', trace, read, hfollows, hread, hposts⟩ := exists_attempt true
  obtain ⟨p, rfl⟩ := Option.isSome_iff_exists.mp (hread.mpr rfl)
  obtain ⟨plan', b, b', trace', read', hfollows', hread', hposts'⟩ := exists_attempt false
  obtain rfl : read' = none := by simpa using hread'
  have hbegan := (Runs.start.step .subscribed).step (.began rfl hfollows)
  rw [hposts] at hbegan
  have hmade := ((hbegan.step (.own rfl rfl)).step (.own rfl rfl)).step (.own rfl rfl)
  -- The event of the other operation is sent before the one of the attempt.
  have hbetween :=
    (hmade.step (@Step.other _ (.notices 1) rfl)).step (.announced (.tail _ (.head _)))
  have hsucceeded : Runs _ {
      board := {
        snapshot := { setup := .available, preferences := some p }
        revision := 2
        sent := 2
        recent := [.newNotices 1, .setupChanged .available] }
      made := 4
      position := some 0 } :=
    (hbetween.step (.announced (.head _))).step (.ended rfl rfl)
  have hheard := (hsucceeded.step (.received rfl rfl)).step (.received rfl rfl)
  have hagain := (hheard.step .looked).step (.began rfl hfollows')
  rw [hposts'] at hagain
  have hlaunching := (hagain.step (.own rfl rfl)).step (.announced (.head _))
  change Runs _ {
    board := {
      snapshot := { setup := .launching, preferences := some p }
      revision := 3
      sent := 3
      recent := [.newNotices 1, .setupChanged .available, .setupChanged .launching] }
    made := 5
    attempt := some ([.setup .error], false)
    position := some 2 } at hlaunching
  have hfailed : Runs _ {
      board := {
        snapshot := { setup := .error, preferences := some p }
        revision := 4
        sent := 4
        recent := [.newNotices 1, .setupChanged .available, .setupChanged .launching,
          .setupChanged .error] }
      made := 6
      position := some 2 } :=
    ((hlaunching.step (.own rfl rfl)).step (.announced (.head _))).step (.ended rfl rfl)
  have hrun := ((hfailed.step (.received rfl rfl)).step (.received rfl rfl)).step .looked
  refine ⟨_, _, hrun, ?_, rfl, ?_, rfl, setup_history hrun⟩
  · simp only [outcomes, List.nil_append, List.cons_append]
    rfl
  · simp only [seen, List.nil_append, List.cons_append]
    rfl

end Observing

end Overseer
