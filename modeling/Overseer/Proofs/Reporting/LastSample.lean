import Overseer.Proofs.Polling.Views
import Overseer.Proofs.Reporting.Freshness

/-!
How old the status file may be.

The writer writes what it sampled, and it samples after everything that it receives. So when nothing
is under way, the summary that was written last is one of a snapshot that stood since the last event
was announced (`Reporting.Runs.shows`); and it may be one of any such snapshot, since nothing makes
the writer look again (`Reporting.exists_shows`). What changes without an event gets to the file
with the next event.
-/

namespace Overseer

/-! ### Snapshots since the last event -/

namespace Snapshot

/-- While these changes were made, a snapshot stood that no event was announced after. -/
def Since (s : Snapshot) (made : List StatusChange) (shown : Snapshot) : Prop :=
  ∃ earlier later, made = earlier ++ later ∧ shown = s.after earlier ∧ shown.announced later = []

variable {s shown : Snapshot} {made : List StatusChange} {change : StatusChange}

/-- The snapshot that shows always counts. -/
theorem since_after (s : Snapshot) (made : List StatusChange) : s.Since made (s.after made) :=
  ⟨made, [], (List.append_nil made).symm, rfl, rfl⟩

theorem announced_concat_eq_nil_iff :
    s.announced (made ++ [change]) = [] ↔
      s.announced made = [] ∧ change.event? (s.after made) = none := by
  rw [announced_append, List.append_eq_nil_iff]
  cases hevent : change.event? (s.after made) <;> simp [announced, hevent]

/-- A change that is announced leaves only what it makes; any other adds that to what was there. -/
theorem since_concat :
    s.Since (made ++ [change]) shown ↔
      shown = s.after (made ++ [change]) ∨
        (s.Since made shown ∧ change.event? (s.after made) = none) := by
  constructor
  · rintro ⟨earlier, later, hmade, rfl, hsilent⟩
    rcases List.eq_nil_or_concat' later with rfl | ⟨before, last, rfl⟩
    · rw [List.append_nil] at hmade
      exact .inl (by rw [hmade])
    · rw [← List.append_assoc] at hmade
      obtain ⟨rfl, hlast⟩ := List.append_inj' hmade rfl
      obtain rfl := List.singleton_inj.mp hlast
      rw [announced_concat_eq_nil_iff, ← after_append] at hsilent
      exact .inr ⟨⟨earlier, before, rfl, rfl, hsilent.1⟩, hsilent.2⟩
  · rintro (rfl | ⟨⟨earlier, later, rfl, rfl, hsilent⟩, hevent⟩)
    · exact since_after s _
    · rw [after_append] at hevent
      exact ⟨earlier, later ++ [change], by rw [List.append_assoc], rfl,
        announced_concat_eq_nil_iff.mpr ⟨hsilent, hevent⟩⟩

end Snapshot

namespace Board

variable (b : Board)

theorem closed_foldl_post (changes : List StatusChange) :
    (changes.foldl post b).closed = b.closed := by
  induction changes generalizing b with
  | nil => rfl
  | cons change rest ih =>
    rw [List.foldl_cons, ih]
    unfold post
    cases change.event? b.snapshot <;> rfl

/-- As many events are sent as are announced. -/
theorem sent_foldl_post (changes : List StatusChange) :
    (changes.foldl post b).sent = b.sent + (b.snapshot.announced changes).length := by
  induction changes generalizing b with
  | nil => rfl
  | cons change rest ih =>
    rw [List.foldl_cons, ih, snapshot_post, Snapshot.announced, List.length_append]
    have hsent : (b.post change).sent = b.sent + (change.event? b.snapshot).toList.length := by
      unfold post
      cases change.event? b.snapshot <;> rfl
    omega

/-- Who knows of all that was sent has nothing to receive from an open board. -/
theorem receive?_of_sent_le {b : Board} {position : Nat} (kept : b.KeepsSent)
    (opened : b.closed = false) (sent : b.sent ≤ position) : b.receive? position = none := by
  unfold KeepsSent at kept
  cases hreceive : b.receive? position with
  | none => rfl
  | some got =>
    obtain ⟨reception, next⟩ := got
    rcases receive?_eq_some kept hreceive with ⟨-, hahead, hnext⟩ | ⟨-, -, hclosed, -⟩
    · omega
    · rw [opened] at hclosed
      cases hclosed

end Board

namespace Reporting

/-! ### The changes of a run -/

def Activity.change? : Activity → Option StatusChange
  | altered change => some change
  | _ => none

/-- The changes that were made, in order. -/
def changes (activities : List Activity) : List StatusChange :=
  activities.filterMap Activity.change?

@[simp] theorem changes_append (first second : List Activity) :
    changes (first ++ second) = changes first ++ changes second :=
  List.filterMap_append ..

variable {path : Path} {tree : Tree} {s s' : Reporting} {activities more : List Activity}
  {activity : Activity} {position : Nat} {x : StatusSummary}

/-- Either more events were sent than before, or none, and what these changes announce is still to
be sent. -/
structure Advances (s : Reporting) (made : List StatusChange) (s' : Reporting) : Prop where
  snapshot : s'.board.snapshot = s.board.snapshot.after made
  sent : s.board.sent < s'.board.sent ∨
    (s.board.sent = s'.board.sent ∧ s'.unsent = s.unsent ++ s.board.snapshot.announced made)

theorem Advances.still (board : s'.board = s.board) (unsent : s'.unsent = s.unsent) :
    s.Advances [] s' where
  snapshot := by rw [board]; rfl
  sent := .inr ⟨by rw [board], by rw [unsent]; exact (List.append_nil _).symm⟩

theorem Step.advances (step : Step path s activity s') :
    s.Advances activity.change?.toList s' := by
  cases step with
  | altered change opened =>
    refine ⟨rfl, .inr ⟨rfl, ?_⟩⟩
    change _ = s.unsent ++ ((change.event? s.board.snapshot).toList ++ [])
    rw [List.append_nil]
  | announced unsent => exact ⟨rfl, .inl (Nat.lt_succ_self _)⟩
  | closed opened quiet => exact ⟨rfl, .inr ⟨rfl, (List.append_nil _).symm⟩⟩
  | subscribed idle => exact .still rfl rfl
  | sampled due now => exact .still rfl rfl
  | wrote holding run => exact .still rfl rfl
  | received waiting more open? => exact .still rfl rfl
  | ended waiting last => exact .still rfl rfl
  | elsewhere tree same => exact .still rfl rfl

theorem Advances.trans {s'' : Reporting} {made made' : List StatusChange}
    (h : s.Advances made s') (h' : s'.Advances made' s'') : s.Advances (made ++ made') s'' where
  snapshot := by rw [h'.snapshot, h.snapshot, Snapshot.after_append]
  sent := by
    rcases h.sent with hsent | ⟨hsent, hunsent⟩
    · rcases h'.sent with hsent' | ⟨hsent', -⟩
      · exact .inl (Nat.lt_trans hsent hsent')
      · exact .inl (hsent' ▸ hsent)
    · rcases h'.sent with hsent' | ⟨hsent', hunsent'⟩
      · exact .inl (hsent ▸ hsent')
      · refine .inr ⟨hsent.trans hsent', ?_⟩
        rw [hunsent', hunsent, h.snapshot, Snapshot.announced_append, List.append_assoc]

theorem Runs.advances (run : Runs path s activities s') : s.Advances (changes activities) s' := by
  induction run with
  | start => exact .still rfl rfl
  | @step s₁ s₂ past activity _ step ih =>
    have hchange : changes [activity] = activity.change?.toList := by
      cases h : activity.change? <;> simp [changes, h]
    rw [changes_append, hchange]
    exact ih.trans step.advances

/-! ### When a summary was sampled -/

/-- A summary tells of the board as it stood when the writer was at this position. -/
def Sampled (path : Path) (tree : Tree) (activities : List Activity) (s : Reporting)
    (position : Nat) (x : StatusSummary) : Prop :=
  ∃ first rest s₁ now, activities = first ++ rest ∧ Runs path (.start tree) first s₁ ∧
    Runs path s₁ rest s ∧ s₁.phase.position? = some position ∧ x = .ofSnapshot s₁.board.snapshot now

theorem Sampled.step (h : Sampled path tree activities s position x)
    (step : Step path s activity s') :
    Sampled path tree (activities ++ [activity]) s' position x := by
  obtain ⟨first, rest, s₁, now, rfl, hfirst, hrest, hposition, hx⟩ := h
  exact ⟨first, rest ++ [activity], s₁, now, by rw [List.append_assoc], hfirst, hrest.step step,
    hposition, hx⟩

/-- What the writer holds and what it wrote last was sampled at its position. -/
structure Dated (path : Path) (tree : Tree) (activities : List Activity) (s : Reporting) :
    Prop where
  holding : ∀ position x, s.phase = .holding position x →
    Sampled path tree activities s position x
  written : ∀ position, s.phase = .waiting position ∨ s.phase = .ended position →
    ∃ x moments, written? activities = some (x, moments) ∧
      Sampled path tree activities s position x

/-- A step that is not one of the writer. -/
theorem Dated.beside (dated : Dated path tree activities s) (step : Step path s activity s')
    (same : s'.phase = s.phase) (silent : activity.written? = none) :
    Dated path tree (activities ++ [activity]) s' where
  holding := by
    intro position x hphase
    rw [same] at hphase
    exact (dated.holding position x hphase).step step
  written := by
    intro position hphase
    rw [same] at hphase
    obtain ⟨x, moments, hwritten, hsampled⟩ := dated.written position hphase
    exact ⟨x, moments, by rw [written?_concat_of_none silent]; exact hwritten, hsampled.step step⟩

/-- A write is one of what was held. -/
theorem Dated.wrote {moments : List Moment} (dated : Dated path tree activities s)
    (holding : s.phase = .holding position x) (step : Step path s (.wrote x moments) s')
    (waiting : s'.phase = .waiting position) :
    Dated path tree (activities ++ [.wrote x moments]) s' where
  holding := by
    intro other y hphase
    rw [waiting] at hphase
    cases hphase
  written := by
    intro other hphase
    obtain rfl : position = other := by
      rw [waiting] at hphase
      rcases hphase with hphase | hphase
      · exact Phase.waiting.inj hphase
      · cases hphase
    exact ⟨x, moments, written?_concat_wrote .., (dated.holding _ x holding).step step⟩

theorem Dated.step (dated : Dated path tree activities s)
    (run : Runs path (.start tree) activities s) (step : Step path s activity s') :
    Dated path tree (activities ++ [activity]) s' := by
  have hstep := step
  cases step with
  | altered change opened => exact dated.beside hstep rfl rfl
  | announced unsent => exact dated.beside hstep rfl rfl
  | closed opened quiet => exact dated.beside hstep rfl rfl
  | elsewhere tree same => exact dated.beside hstep rfl rfl
  | subscribed idle =>
    refine ⟨(fun _ _ h => by cases h), ?_⟩
    rintro position (h | h) <;> cases h
  | @sampled position due now =>
    refine ⟨?_, by rintro other (h | h) <;> cases h⟩
    intro other x hphase
    cases hphase
    refine ⟨activities, [.sampled now], s, now, rfl, run, Runs.start.step hstep, ?_, rfl⟩
    rw [due]
    rfl
  | wrote holding written => exact dated.wrote holding hstep rfl
  | received waiting more open? =>
    refine ⟨(fun _ _ h => by cases h), ?_⟩
    rintro position (h | h) <;> cases h
  | @ended position next waiting last =>
    refine ⟨(fun _ _ h => by cases h), ?_⟩
    rintro other (h | h)
    · cases h
    · cases h
      obtain ⟨x, moments, hwritten, hsampled⟩ := dated.written position (.inl waiting)
      exact ⟨x, moments, by rw [written?_concat_of_none rfl]; exact hwritten, hsampled.step hstep⟩

theorem Runs.dated (run : Runs path (.start tree) activities s) :
    Dated path tree activities s := by
  induction run with
  | start =>
    refine ⟨(fun _ _ h => by cases h), ?_⟩
    rintro position (h | h) <;> cases h
  | step run step ih => exact ih.step run step

/-! ### What the file shows -/

/-- The summary that was written last tells of this snapshot. -/
def Shows (path : Path) (activities : List Activity) (s : Reporting) (shown : Snapshot) : Prop :=
  ∃ now, Stands path activities s (.ofSnapshot shown now)

/-- When nothing is under way, the writer has looked since the last event. -/
theorem Runs.shows (run : Runs path (.start tree) activities s) (settled : s.Settled) :
    ∃ shown, Snapshot.Since {} (changes activities) shown ∧ Shows path activities s shown := by
  have hphase : ∃ position, s.phase = .waiting position ∨ s.phase = .ended position := by
    rcases settled.consumed with ⟨position, hphase⟩ | ⟨position, hphase, -⟩
    · exact ⟨position, .inr hphase⟩
    · exact ⟨position, .inl hphase⟩
  obtain ⟨position, hphase⟩ := hphase
  obtain ⟨x, moments, hwritten, first, rest, s₁, now, rfl, hfirst, hrest, hposition, rfl⟩ :=
    run.dated.written position hphase
  have hsnapshot : s₁.board.snapshot = Snapshot.after {} (changes first) :=
    hfirst.advances.snapshot
  refine ⟨s₁.board.snapshot, ⟨changes first, changes rest, changes_append .., hsnapshot, ?_⟩,
    now, ?_⟩
  · -- The writer is still where it sampled, and has heard of all events: none was sent since.
    have hheard : s.board.sent ≤ position := by
      refine Nat.not_lt.mp fun hbehind =>
        run.sound.not_behind settled (.inr ⟨position, ?_, hbehind⟩)
      rcases hphase with hphase | hphase
      · rw [hphase]
        rfl
      · rw [hphase]
        rfl
    have hknown : position ≤ s₁.board.sent := hfirst.sound.position position hposition
    rcases hrest.advances.sent with hsent | ⟨-, hunsent⟩
    · omega
    · rw [settled.unsent] at hunsent
      exact (List.append_eq_nil_iff.mp hunsent.symm).2
  · obtain ⟨y, ⟨moments', hlast, hlands⟩, -⟩ := run.sound.written position hphase
    rw [hwritten] at hlast
    cases hlast
    exact ⟨moments, hwritten, hlands⟩

/-! ### Any of these snapshots can be the one -/

/-- An operation that nothing comes between. -/
theorem runs_of_post (quiet : s.unsent = []) (opened : s.board.closed = false)
    (change : StatusChange) :
    ∃ activities, Runs path s activities { s with board := s.board.post change } ∧
      changes activities = [change] ∧ activities.filterMap Activity.written? = [] := by
  obtain ⟨board, unsent, phase, tree⟩ := s
  obtain rfl : unsent = [] := quiet
  have haltered := Runs.start.step (@Step.altered path ⟨board, [], phase, tree⟩ change opened)
  rw [Board.post_eq]
  cases hevent : change.event? board.snapshot with
  | none =>
    rw [hevent] at haltered
    exact ⟨_, haltered, rfl, rfl⟩
  | some event =>
    rw [hevent] at haltered
    have hannounced := haltered.step (.announced (List.mem_singleton_self event))
    simp only [Option.toList_some, List.nil_append, List.erase_cons_head] at hannounced
    exact ⟨_, hannounced, rfl, rfl⟩

theorem runs_of_posts (quiet : s.unsent = []) (opened : s.board.closed = false)
    (made : List StatusChange) :
    ∃ activities, Runs path s activities { s with board := made.foldl Board.post s.board } ∧
      changes activities = made ∧ activities.filterMap Activity.written? = [] := by
  induction made generalizing s with
  | nil => exact ⟨[], .start, rfl, rfl⟩
  | cons change rest ih =>
    obtain ⟨first, hfirst, hchange, hsilent⟩ := @runs_of_post path s quiet opened change
    have hopened : (s.board.post change).closed = false := by
      rw [← opened]
      exact Board.closed_foldl_post s.board [change]
    obtain ⟨second, hsecond, hrest, hsilent'⟩ :=
      ih (s := { s with board := s.board.post change }) quiet hopened
    refine ⟨first ++ second, hfirst.trans hsecond, ?_, ?_⟩
    · rw [changes_append, hchange, hrest]
      rfl
    · rw [List.filterMap_append, hsilent, hsilent']
      rfl

/-- The writer may look before the changes that no event tells of, write once, and then wait. -/
theorem exists_shows {made : List StatusChange} {shown : Snapshot} {now : Timestamp}
    {moments : List Moment} {tree' : Tree} (since : Snapshot.Since {} made shown)
    (write : OverFiles tree ((StatusSummary.ofSnapshot shown now).writeFile path) moments ()
      tree') :
    ∃ activities s, Runs path (.start tree) activities s ∧ changes activities = made ∧ s.Settled ∧
      activities.filterMap Activity.written? = [(.ofSnapshot shown now, moments)] ∧
      s.tree = tree' := by
  obtain ⟨earlier, later, rfl, rfl, hsilent⟩ := since
  obtain ⟨first, hfirst, hearlier, hquiet⟩ :=
    @runs_of_posts path (.start tree) rfl rfl earlier
  let board := earlier.foldl Board.post {}
  have hshown : board.snapshot = Snapshot.after {} earlier := Board.snapshot_foldl_post {} earlier
  have hopened : board.closed = false := Board.closed_foldl_post {} earlier
  have hsubscribed : Runs path (.start tree) _ ⟨board, [], .due board.sent, tree⟩ :=
    hfirst.step (.subscribed rfl)
  rw [← hshown] at write
  have hlooked := hsubscribed.trans (runs_of_write rfl write)
  obtain ⟨last, hlast, hlater, hnone⟩ :=
    @runs_of_posts path ⟨board, [], .waiting board.sent, tree'⟩ rfl hopened later
  have hrun := hlooked.trans hlast
  refine ⟨_, _, hrun, ?_, ⟨rfl, .inr ⟨_, rfl, ?_⟩⟩, ?_, rfl⟩
  · simp only [changes_append, hearlier, hlater, List.append_assoc]
    rfl
  · -- No event was sent after the writer looked.
    intro reception next hreceive
    have hsent : (later.foldl Board.post board).sent ≤ board.sent := by
      rw [Board.sent_foldl_post, hshown, hsilent]
      exact Nat.le_refl _
    have hstill : (later.foldl Board.post board).closed = false := by
      rw [Board.closed_foldl_post, hopened]
    have hnothing := Board.receive?_of_sent_le hrun.sound.kept hstill hsent
    rw [hnothing] at hreceive
    cases hreceive
  · rw [← hshown]
    simp only [List.filterMap_append, hquiet, hnone, List.nil_append, List.append_nil]
    rfl

end Reporting

end Overseer
