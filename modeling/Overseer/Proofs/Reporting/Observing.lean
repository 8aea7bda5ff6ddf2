import Overseer.Proofs.Polling.Views
import Overseer.Proofs.Reporting.Interleaving
import Overseer.Proofs.Throughout
import Overseer.Setup

/-!
Operations on the board beside an observer.

One task sets up, attempt after attempt, and nobody else changes the setup status. Anybody else may
change anything else at any time, and of all operations under way any may be the next to send its
event. An observer subscribes, receives and takes snapshots whenever it likes. `Observing.Step` is
one step of any of them, and `Observing.Runs` are the sequences of such steps.

What was sent and received is read off the activities: every event is sent once, by the change that
it tells of (`Observing.Accounted.told`), and an observer receives the events in the order in which
they were sent (`Observing.Accounted.seen`).
-/

namespace Overseer

open Program

/-- The setup status that a change is about. -/
def StatusChange.setup? : StatusChange → Option SetupStatus
  | setup status => some status
  | _ => none

/-- The setup status that an event tells of. -/
def StatusEvent.setup? : StatusEvent → Option SetupStatus
  | setupChanged status => some status
  | _ => none

/-! ### The system -/

structure Observing where
  board : Board := {}
  /-- How many changes were made. -/
  made : Nat := 0
  /-- The events that are still to be sent, each with the number of the change that it tells of. -/
  unsent : List (Nat × StatusEvent) := []
  /-- The attempt to set up that is under way: what it will still change, and how it ends. -/
  attempt : Option (List StatusChange × Bool) := none
  /-- The observer's position in the sequence of events, once it has subscribed. -/
  position : Option Nat := none

namespace Observing

/-- What shows of a step. -/
inductive Activity where
  /-- An attempt to set up began. -/
  | began
  /-- An operation changed the snapshot. -/
  | altered (change : StatusChange)
  /-- An operation sent the event of its change. -/
  | announced (number : Nat) (event : StatusEvent)
  /-- An attempt to set up ended. -/
  | ended (ok : Bool)
  | subscribed
  /-- The observer received something at its position. -/
  | received (position : Nat) (reception : Reception)
  /-- The observer took a snapshot. -/
  | looked (snapshot : Snapshot)

/-- A change is made, and its event, if it has one, is still to be sent. -/
def alter (s : Observing) (change : StatusChange) : Observing :=
  { s with
    board := s.board.alter change
    made := s.made + 1
    unsent := s.unsent ++ (change.event? s.board.snapshot).toList.map fun event => (s.made, event) }

/-- The setup statuses that are still to be told. -/
def untold (s : Observing) : List SetupStatus := s.unsent.filterMap fun e => e.2.setup?

/-- One step of an operation or of the observer. -/
inductive Step (s : Observing) : Activity → Observing → Prop where
  /-- Attempts are made one after the other. What an attempt will change is settled by how its
  surroundings answer. -/
  | began {plan : SetupPlan} {a a' : Attempt} {trace : List (Exchange Effects)} {ok : Bool}
      (idle : s.attempt = none) (followed : Follows (plan.run a) trace (ok, a')) :
      Step s .began { s with attempt := some (posts trace, ok) }
  /-- The attempt makes its next change. It has sent the event of the last one by then. -/
  | own {change : StatusChange} {rest : List StatusChange} {ok : Bool}
      (underWay : s.attempt = some (change :: rest, ok)) (told : s.untold = []) :
      Step s (.altered change) { s.alter change with attempt := some (rest, ok) }
  /-- Anybody makes any other change. -/
  | other {change : StatusChange} (beside : change.setup? = none) :
      Step s (.altered change) (s.alter change)
  | announced {number : Nat} {event : StatusEvent} (unsent : (number, event) ∈ s.unsent) :
      Step s (.announced number event)
        { s with board := s.board.send event, unsent := s.unsent.erase (number, event) }
  | ended {ok : Bool} (complete : s.attempt = some ([], ok)) (told : s.untold = []) :
      Step s (.ended ok) { s with attempt := none }
  | subscribed : Step s .subscribed { s with position := some s.board.subscribe }
  | received {position next : Nat} {reception : Reception} (waiting : s.position = some position)
      (more : s.board.receive? position = some (reception, next)) :
      Step s (.received position reception) { s with position := some next }
  | looked : Step s (.looked s.board.snapshot) s

/-- Any number of steps from the start, with what shows of them. -/
inductive Runs : List Activity → Observing → Prop where
  | start : Runs [] {}
  | step {s s' : Observing} {activities : List Activity} {activity : Activity}
      (run : Runs activities s) (step : Step s activity s') : Runs (activities ++ [activity]) s'

/-! ### Views of a run -/

def Activity.change? : Activity → Option StatusChange
  | altered change => some change
  | _ => none

def Activity.announcement? : Activity → Option (Nat × StatusEvent)
  | announced number event => some (number, event)
  | _ => none

def Activity.outcome? : Activity → Option Bool
  | ended ok => some ok
  | _ => none

/-- What an observer that has seen some events has seen after an activity. Whoever subscribes or
hears of missed events starts over. -/
def Activity.see (seen : List StatusEvent) : Activity → List StatusEvent
  | subscribed => []
  | received _ (.lagged _) => []
  | received _ (.event event) => seen ++ [event]
  | _ => seen

/-- The changes that were made, in order. -/
def changes (activities : List Activity) : List StatusChange :=
  activities.filterMap Activity.change?

/-- The events that were sent, in order, each with the number of its change. -/
def announcements (activities : List Activity) : List (Nat × StatusEvent) :=
  activities.filterMap Activity.announcement?

/-- The events that were sent, in order. -/
def events (activities : List Activity) : List StatusEvent :=
  (announcements activities).map Prod.snd

/-- The setup statuses that observers were told of, in order. -/
def statuses (activities : List Activity) : List SetupStatus :=
  (announcements activities).filterMap fun e => e.2.setup?

/-- How the attempts ended, in order. -/
def outcomes (activities : List Activity) : List Bool := activities.filterMap Activity.outcome?

/-- The events that the observer has received since it subscribed or was last told that it missed
some. -/
def seen (activities : List Activity) : List StatusEvent := activities.foldl Activity.see []

section Views

variable (activities : List Activity) (activity : Activity)

@[simp] theorem changes_concat :
    changes (activities ++ [activity]) = changes activities ++ activity.change?.toList := by
  cases h : activity.change? <;> simp [changes, h]

@[simp] theorem announcements_concat :
    announcements (activities ++ [activity]) =
      announcements activities ++ activity.announcement?.toList := by
  cases h : activity.announcement? <;> simp [announcements, h]

theorem events_concat :
    events (activities ++ [activity]) =
      events activities ++ (activity.announcement?.map Prod.snd).toList := by
  rw [events, announcements_concat, List.map_append]
  cases activity.announcement? <;> rfl

theorem events_concat_of_none (h : activity.announcement? = none) :
    events (activities ++ [activity]) = events activities := by
  rw [events_concat, h, Option.map_none, Option.toList_none, List.append_nil]

@[simp] theorem outcomes_concat :
    outcomes (activities ++ [activity]) = outcomes activities ++ activity.outcome?.toList := by
  cases h : activity.outcome? <;> simp [outcomes, h]

@[simp] theorem seen_concat :
    seen (activities ++ [activity]) = activity.see (seen activities) := by
  simp [seen]

theorem statuses_append (more : List Activity) :
    statuses (activities ++ more) = statuses activities ++ statuses more := by
  simp [statuses, announcements]

theorem statuses_eq : statuses activities = (events activities).filterMap StatusEvent.setup? := by
  simp only [statuses, events, List.filterMap_map]
  rfl

end Views

/-! ### The events on the board -/

/-- What an observer receives while it keeps up is the event at its position. -/
theorem receive?_event {b : Board} {sent : List StatusEvent} {position next : Nat}
    {event : StatusEvent} (hrecent : b.recent = sent.rtake Board.capacity)
    (hsent : b.sent = sent.length) (h : b.receive? position = some (.event event, next)) :
    sent[position]? = some event ∧ next = position + 1 := by
  unfold Board.receive? at h
  dsimp only at h
  split at h
  · cases h
  · rename_i hkept
    cases hget : b.recent[position - (b.sent - b.recent.length)]? with
    | none =>
      rw [hget] at h
      cases hclosed : b.closed <;> simp [hclosed] at h
    | some kept =>
      rw [hget] at h
      cases h
      refine ⟨?_, rfl⟩
      rw [← hget, hsent, hrecent, List.rtake, List.getElem?_drop]
      rw [hsent, hrecent, List.rtake, List.length_drop] at hkept
      congr 1
      rw [List.length_drop]
      omega

/-- Of this change the event tells. -/
def Tells (changes : List StatusChange) (number : Nat) (event : StatusEvent) : Prop :=
  ∃ change, changes[number]? = some change ∧
    change.event? (Snapshot.after {} (changes.take number)) = some event

theorem Tells.concat {made : List StatusChange} {number : Nat} {event : StatusEvent}
    (h : Tells made number event) (more : List StatusChange) :
    Tells (made ++ more) number event := by
  obtain ⟨change, hget, hevent⟩ := h
  have hnumber : number < made.length := (List.getElem?_eq_some_iff.mp hget).1
  refine ⟨change, ?_, ?_⟩
  · rw [List.getElem?_append_left hnumber]
    exact hget
  · rw [List.take_append_of_le_length (Nat.le_of_lt hnumber)]
    exact hevent

/-- What was made, sent and received adds up. -/
structure Accounted (activities : List Activity) (s : Observing) : Prop where
  made : s.made = (changes activities).length
  snapshot : s.board.snapshot = Snapshot.after {} (changes activities)
  sent : s.board.sent = (events activities).length
  recent : s.board.recent = (events activities).rtake Board.capacity
  /-- Every event tells of the change whose number goes with it, -/
  told : ∀ e ∈ announcements activities ++ s.unsent, Tells (changes activities) e.1 e.2
  /-- and no two events of the same change. -/
  once : ((announcements activities ++ s.unsent).map Prod.fst).Nodup
  /-- The observer has seen the last events before its position, and none before it subscribes. -/
  seen : s.position.getD 0 ≤ (events activities).length ∧
    seen activities <:+ (events activities).take (s.position.getD 0)

namespace Accounted

variable {activities : List Activity} {activity : Activity} {s s' : Observing}

theorem start : Accounted [] {} where
  made := rfl
  snapshot := rfl
  sent := rfl
  recent := rfl
  told := nofun
  once := List.nodup_nil
  seen := ⟨Nat.le_refl 0, List.nil_suffix⟩

/-- A step that neither changes the snapshot nor tells of anything may move the observer. -/
theorem beside {attempt : Option (List StatusChange × Bool)} {position : Option Nat}
    (accounted : Accounted activities s) (change : activity.change? = none)
    (announcement : activity.announcement? = none)
    (seen : position.getD 0 ≤ (events activities).length ∧
      activity.see (Observing.seen activities) <:+
        (events activities).take (position.getD 0)) :
    Accounted (activities ++ [activity]) { s with attempt, position } where
  made := by simpa [change] using accounted.made
  snapshot := by simpa [change] using accounted.snapshot
  sent := by
    rw [events_concat_of_none _ _ announcement]
    exact accounted.sent
  recent := by
    rw [events_concat_of_none _ _ announcement]
    exact accounted.recent
  told := by simpa [change, announcement] using accounted.told
  once := by simpa [announcement] using accounted.once
  seen := by
    rw [events_concat_of_none _ _ announcement, seen_concat]
    exact seen

/-- The event of a change is not among those of earlier changes. -/
theorem alter {change : StatusChange} {attempt : Option (List StatusChange × Bool)}
    (accounted : Accounted activities s) :
    Accounted (activities ++ [.altered change]) { s.alter change with attempt } where
  made := by simp [Observing.alter, accounted.made, Activity.change?]
  snapshot := by
    rw [changes_concat, Snapshot.after_append, ← accounted.snapshot]
    rfl
  sent := by
    rw [events_concat_of_none _ _ rfl]
    exact accounted.sent
  recent := by
    rw [events_concat_of_none _ _ rfl]
    exact accounted.recent
  told := by
    intro e he
    simp only [announcements_concat, changes_concat, Activity.announcement?, Activity.change?,
      Observing.alter, Option.toList_none, Option.toList_some, List.append_nil,
      ← List.append_assoc] at he ⊢
    rcases List.mem_append.mp he with hold | hnew
    · exact (accounted.told e hold).concat [change]
    · obtain ⟨event, hevent, rfl⟩ := List.mem_map.mp hnew
      refine ⟨change, by simp [accounted.made], ?_⟩
      dsimp only
      rw [accounted.made, List.take_left, ← accounted.snapshot]
      exact Option.mem_toList.mp hevent
  once := by
    simp only [announcements_concat, Activity.announcement?, Observing.alter, Option.toList_none,
      List.append_nil, ← List.append_assoc, List.map_append]
    rw [← List.map_append]
    refine List.nodup_append.mpr ⟨accounted.once, ?_, ?_⟩
    · cases change.event? s.board.snapshot <;> simp
    · intro number hold number' hnew
      obtain ⟨e, he, rfl⟩ := List.mem_map.mp hold
      obtain ⟨_, hget, -⟩ := accounted.told e he
      have hlt : e.1 < s.made := accounted.made ▸ (List.getElem?_eq_some_iff.mp hget).1
      have hnumber' : number' = s.made := by
        cases hevent : change.event? s.board.snapshot <;> simp_all
      omega
  seen := by
    rw [events_concat_of_none _ _ rfl, seen_concat]
    exact accounted.seen

/-- Sending an event moves it from those that are still to be sent to those that were. -/
theorem announce {number : Nat} {event : StatusEvent} (accounted : Accounted activities s)
    (unsent : (number, event) ∈ s.unsent) :
    Accounted (activities ++ [.announced number event])
      { s with board := s.board.send event, unsent := s.unsent.erase (number, event) } := by
  have hevents : events (activities ++ [.announced number event]) = events activities ++ [event] :=
    events_concat ..
  have hperm : (announcements activities ++ s.unsent).Perm
      (announcements (activities ++ [.announced number event]) ++
        s.unsent.erase (number, event)) := by
    simp only [announcements_concat, Activity.announcement?, Option.toList_some,
      List.append_assoc, List.singleton_append]
    exact (List.perm_cons_erase unsent).append_left _
  refine {
    made := by simpa [Activity.change?] using accounted.made
    snapshot := by simpa [Activity.change?, Board.send] using accounted.snapshot
    sent := ?_
    recent := ?_
    told := ?_
    once := ((hperm.map Prod.fst).nodup_iff).mp accounted.once
    seen := ?_ }
  · rw [hevents, List.length_append, ← accounted.sent]
    rfl
  · rw [hevents, ← rtake_rtake_append, ← accounted.recent]
    rfl
  · intro e he
    have htold := accounted.told e (hperm.mem_iff.mpr he)
    simpa [Activity.change?] using htold
  · obtain ⟨hle, hseen⟩ := accounted.seen
    rw [hevents, List.take_append_of_le_length hle, seen_concat, List.length_append]
    exact ⟨Nat.le_add_right_of_le hle, hseen⟩

/-- An observer that receives gets on, and sees what it receives. -/
theorem receive {position next : Nat} {reception : Reception} (accounted : Accounted activities s)
    (waiting : s.position = some position)
    (more : s.board.receive? position = some (reception, next)) :
    Accounted (activities ++ [.received position reception]) { s with position := some next } := by
  apply accounted.beside rfl rfl
  obtain ⟨hle, hseen⟩ := accounted.seen
  rw [waiting, Option.getD_some] at hle hseen
  have hkept : s.board.KeepsSent := by
    rw [Board.KeepsSent, accounted.sent, accounted.recent, List.rtake, List.length_drop]
    omega
  rw [Option.getD_some]
  rcases Board.receive?_eq_some hkept more with ⟨hopen, hbehind, hnext⟩ | ⟨rfl, rfl, -⟩
  · rw [accounted.sent] at hnext
    refine ⟨hnext, ?_⟩
    cases reception with
    | closed => exact absurd rfl hopen
    | lagged missed => exact List.nil_suffix
    | event event =>
      obtain ⟨hget, rfl⟩ := receive?_event accounted.recent accounted.sent more
      obtain ⟨earlier, hearlier⟩ := hseen
      refine ⟨earlier, ?_⟩
      rw [List.take_add_one, hget, ← hearlier, List.append_assoc]
      rfl
  · exact ⟨hle, hseen⟩

theorem step (accounted : Accounted activities s) (step : Step s activity s') :
    Accounted (activities ++ [activity]) s' := by
  cases step with
  | began idle followed => exact accounted.beside rfl rfl accounted.seen
  | own underWay told => exact accounted.alter
  | other silent => exact accounted.alter
  | announced unsent => exact accounted.announce unsent
  | ended complete told => exact accounted.beside rfl rfl accounted.seen
  | subscribed =>
    have hposition : s.board.subscribe ≤ (events activities).length :=
      Nat.le_of_eq accounted.sent
    exact accounted.beside rfl rfl ⟨hposition, List.nil_suffix⟩
  | received waiting more => exact accounted.receive waiting more
  | looked => exact accounted.beside rfl rfl accounted.seen

end Accounted

theorem Runs.accounted {activities : List Activity} {s : Observing} (run : Runs activities s) :
    Accounted activities s := by
  induction run with
  | start => exact .start
  | step _ step ih => exact ih.step step

/-! ### Snapshots after events -/

/-- The event at a position, and the change that it tells of, which was made before. -/
def Received (activities : List Activity) (position : Nat) (event : StatusEvent) : Prop :=
  ∃ number, (announcements activities)[position]? = some (number, event) ∧
    Tells (changes activities) number event

/-- A snapshot shows all that was changed so far, the changes that the events received so far tell
of among it. -/
def ShowsAll (before : List Activity) (activity : Activity) : Prop :=
  ∀ snapshot, activity = .looked snapshot →
    snapshot = Snapshot.after {} (changes before) ∧
      ∀ position event, .received position (.event event) ∈ before →
        Received before position event

section Snapshots

variable {activities : List Activity} {activity : Activity} {s s' : Observing}

theorem Received.concat {position : Nat} {event : StatusEvent}
    (h : Received activities position event) :
    Received (activities ++ [activity]) position event := by
  obtain ⟨number, hget, htells⟩ := h
  refine ⟨number, ?_, ?_⟩
  · rw [announcements_concat, List.getElem?_append_left (List.getElem?_eq_some_iff.mp hget).1]
    exact hget
  · rw [changes_concat]
    exact htells.concat _

/-- What is received was sent, and what it tells of was done. -/
theorem Accounted.received {position next : Nat} {event : StatusEvent}
    (accounted : Accounted activities s)
    (more : s.board.receive? position = some (.event event, next)) :
    Received activities position event := by
  obtain ⟨hget, -⟩ := receive?_event accounted.recent accounted.sent more
  rw [events, List.getElem?_map] at hget
  obtain ⟨⟨number, event'⟩, hannounced, rfl⟩ := Option.map_eq_some_iff.mp hget
  refine ⟨number, hannounced, ?_⟩
  exact accounted.told (number, event') (List.mem_append_left _ (List.mem_of_getElem? hannounced))

theorem Runs.received (run : Runs activities s) :
    ∀ position event, .received position (.event event) ∈ activities →
      Received activities position event := by
  induction run with
  | start => nofun
  | step run step ih =>
    intro position event hmem
    rcases List.mem_append.mp hmem with hold | hnew
    · exact (ih position event hold).concat
    · obtain rfl := List.mem_singleton.mp hnew
      cases step with
      | received waiting more => exact (run.accounted.received more).concat

theorem Runs.showsAll (run : Runs activities s) : Throughout ShowsAll activities := by
  induction run with
  | start => exact throughout_nil
  | step run step ih =>
    refine throughout_concat.mpr ⟨ih, ?_⟩
    rintro snapshot rfl
    cases step with
    | looked => exact ⟨run.accounted.snapshot, run.received⟩

end Snapshots

end Observing

end Overseer
