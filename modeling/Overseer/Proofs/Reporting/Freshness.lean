import Overseer.Proofs.Reporting.Interleaving

/-!
The status file is never left behind.

The snapshot is changed before the event is sent, and whatever changes the part that a summary tells
sends one. So a writer that holds an old summary still has an event to receive, or one is about to
be sent (`Reporting.Fresh`), and this holds after every step (`Reporting.Sound.step`). When nothing
is under way, what was written last is up to date, and after the board is closed the writer ends
with such a write (`Reporting.no_update_lost`).
-/

namespace Overseer

/-! ### Summaries and snapshots -/

namespace StatusSummary

/-- A summary tells what a snapshot holds. Whether the worker computes is left out, because no event
tells of it. -/
structure Agrees (x : StatusSummary) (s : Snapshot) : Prop where
  setup : x.setup = s.setup
  taskSuspendReason : x.taskSuspendReason = s.worker.map (·.status.taskSuspendReason)
  networkSuspendReason : x.networkSuspendReason = s.worker.map (·.status.networkSuspendReason)
  tasks : x.tasks = (s.worker.map (·.tasks.length)).getD 0
  projects : x.projects = (s.worker.map (·.projects.length)).getD 0
  transfers : x.transfers = (s.worker.map (·.transfers.length)).getD 0
  notices : x.notices = (s.worker.map (·.notices.length)).getD 0
  lastUpdate : x.lastUpdate = s.updatedAt.map Timestamp.text

theorem agrees_ofSnapshot (s : Snapshot) (now : Timestamp) : (ofSnapshot s now).Agrees s where
  setup := rfl
  taskSuspendReason := rfl
  networkSuspendReason := rfl
  tasks := rfl
  projects := rfl
  transfers := rfl
  notices := rfl
  lastUpdate := rfl

/-- What announces nothing changes nothing that a summary tells. -/
theorem Agrees.apply {x : StatusSummary} {s : Snapshot} {change : StatusChange} (h : x.Agrees s)
    (silent : change.event? s = none) : x.Agrees (change.apply s) := by
  cases change with
  | publish read time => cases silent
  | setup status =>
    simp only [StatusChange.event?] at silent
    split at silent
    · rename_i hsame
      rw [StatusChange.apply, ← hsame]
      exact h
    · cases silent
  | preferences preferences => exact { h with }
  | computing computing => exact { h with }
  | notices count => exact h

end StatusSummary

namespace Reporting

/-! ### Summaries that are up to date -/

/-- The writer will hear of a change: an event of it is under way or was not received yet. -/
def Behind (s : Reporting) : Prop :=
  s.unsent ≠ [] ∨ ∃ position, s.phase.position? = some position ∧ position < s.board.sent

/-- A summary is up to date, or the writer will make another one. -/
def Fresh (s : Reporting) (x : StatusSummary) : Prop :=
  s.Behind ∨ x.Agrees s.board.snapshot

/-- What was written last. -/
def written? (activities : List Activity) : Option (StatusSummary × List Moment) :=
  (activities.filterMap Activity.written?).getLast?

@[simp] theorem written?_concat_of_none {activities : List Activity} {activity : Activity}
    (h : activity.written? = none) : written? (activities ++ [activity]) = written? activities := by
  simp [written?, h]

@[simp] theorem written?_concat_wrote (activities : List Activity) (x : StatusSummary)
    (moments : List Moment) :
    written? (activities ++ [.wrote x moments]) = some (x, moments) := by
  simp [written?, Activity.written?]

/-- A summary was written last, and its text stands in the file, unless the files refused it. -/
def Stands (path : Path) (activities : List Activity) (s : Reporting) (x : StatusSummary) : Prop :=
  ∃ moments, written? activities = some (x, moments) ∧ x.Lands path moments s.tree

/-- No write of the status file was refused. -/
def WritesGoThrough (path : Path) (activities : List Activity) : Prop :=
  ∀ write ∈ activities.filterMap Activity.written?, ¬StatusSummary.Refused path write.2

/-- What was written last is up to date. -/
def Current (path : Path) (activities : List Activity) (s : Reporting) : Prop :=
  ∃ x, Stands path activities s x ∧ x.Agrees s.board.snapshot

/-- No operation is under way, and the writer has received all events. -/
structure Settled (s : Reporting) : Prop where
  unsent : s.unsent = []
  consumed : (∃ position, s.phase = .ended position) ∨ ∃ position, s.phase = .waiting position ∧
    ∀ reception next, s.board.receive? position = some (reception, next) → reception = .closed

variable {path : Path} {s s' : Reporting} {activities more : List Activity} {activity : Activity}
  {x : StatusSummary}

theorem Fresh.altered {change : StatusChange} (h : s.Fresh x) :
    Fresh
      { s with
        board := s.board.alter change
        unsent := s.unsent ++ (change.event? s.board.snapshot).toList } x := by
  cases hevent : change.event? s.board.snapshot with
  | some event => exact .inl (.inl (by simp))
  | none =>
    rcases h with hbehind | hagrees
    · left
      simpa [Behind, Board.alter] using hbehind
    · exact .inr (hagrees.apply hevent)

/-- The writer hears of every event that is sent after it has subscribed. -/
theorem behind_send {event : StatusEvent} {unsent : List StatusEvent} {position : Nat}
    (subscribed : s.phase.position? = some position) (sent : position ≤ s.board.sent) :
    Behind { s with board := s.board.send event, unsent } :=
  .inr ⟨position, subscribed, Nat.lt_succ_of_le sent⟩

/-! ### What every step preserves -/

structure Sound (path : Path) (activities : List Activity) (s : Reporting) : Prop where
  kept : s.board.KeepsSent
  position : ∀ position, s.phase.position? = some position → position ≤ s.board.sent
  closed : s.board.closed = true → s.unsent = []
  ended : ∀ position, s.phase = .ended position → s.board.closed = true ∧ s.board.sent ≤ position
  holding : ∀ position x, s.phase = .holding position x → s.Fresh x
  written : ∀ position, s.phase = .waiting position ∨ s.phase = .ended position →
    ∃ x, Stands path activities s x ∧ s.Fresh x

theorem sound_start (path : Path) (tree : Tree) : Sound path [] (start tree) where
  kept := Nat.le_refl 0
  position _ h := by cases h
  closed h := by cases h
  ended _ h := by cases h
  holding _ _ h := by cases h
  written := by
    rintro position (h | h)
    · cases h
    · cases h

/-- A step beside the writer and the files. -/
theorem Sound.beside {board : Board} {unsent : List StatusEvent} (sound : Sound path activities s)
    (silent : activity.written? = none) (kept : board.KeepsSent)
    (sent : s.board.sent ≤ board.sent) (closed : board.closed = true → unsent = [])
    (ended : s.board.closed = true → board = s.board)
    (fresh : ∀ position x, s.phase.position? = some position → s.Fresh x →
      Fresh { s with board, unsent } x) :
    Sound path (activities ++ [activity]) { s with board, unsent } where
  kept := kept
  position position hposition := Nat.le_trans (sound.position position hposition) sent
  closed := closed
  ended := by
    intro position hphase
    obtain ⟨hclosed, hsent⟩ := sound.ended position hphase
    have hboard := ended hclosed
    rw [hboard]
    exact ⟨hclosed, hsent⟩
  holding := by
    intro position x hphase
    have hphase : s.phase = .holding position x := hphase
    refine fresh position x ?_ (sound.holding position x hphase)
    rw [hphase]
    rfl
  written := by
    intro position hphase
    obtain ⟨x, ⟨moments, hlast, hlands⟩, hfresh⟩ := sound.written position hphase
    have hposition : s.phase.position? = some position := by
      rcases hphase with hphase | hphase
      · have hphase : s.phase = .waiting position := hphase
        rw [hphase]
        rfl
      · have hphase : s.phase = .ended position := hphase
        rw [hphase]
        rfl
    refine ⟨x, ⟨moments, ?_, hlands⟩, fresh position x hposition hfresh⟩
    rw [written?_concat_of_none silent]
    exact hlast

/-- A step of the writer that moves it on, without a word about what it wrote. -/
theorem Sound.move {phase : Phase} (sound : Sound path activities s)
    (position : ∀ position, phase.position? = some position → position ≤ s.board.sent)
    (ended : ∀ position, phase = .ended position → s.board.closed = true ∧ s.board.sent ≤ position)
    (holding : ∀ position x, phase = .holding position x → x.Agrees s.board.snapshot)
    (written : ∀ position, phase = .waiting position ∨ phase = .ended position →
      ∃ x, Stands path (activities ++ [activity]) s x ∧ Fresh { s with phase } x) :
    Sound path (activities ++ [activity]) { s with phase } where
  kept := sound.kept
  position := position
  closed := sound.closed
  ended := ended
  holding position x h := .inr (holding position x h)
  written := written

/-- After a write the summary that was held is the one that was written last. -/
theorem Sound.wrote {position : Nat} {moments : List Moment} {tree : Tree}
    (sound : Sound path activities s) (holding : s.phase = .holding position x)
    (lands : x.Lands path moments tree) :
    Sound path (activities ++ [.wrote x moments]) { s with phase := .waiting position, tree } where
  kept := sound.kept
  position := by
    intro other h
    cases h
    apply sound.position
    rw [holding]
    rfl
  closed := sound.closed
  ended _ h := by cases h
  holding _ _ h := by cases h
  written := by
    intro other _
    refine ⟨x, ⟨moments, written?_concat_wrote activities x moments, lands⟩, ?_⟩
    have hfresh := sound.holding position x holding
    unfold Fresh Behind at hfresh ⊢
    rw [holding] at hfresh
    exact hfresh

/-- Every step keeps the writer informed. -/
theorem Sound.step (sound : Sound path activities s) (step : Step path s activity s') :
    Sound path (activities ++ [activity]) s' := by
  cases step with
  | altered change opened =>
    refine sound.beside rfl sound.kept (Nat.le_refl _) ?_ ?_ fun _ _ _ h => h.altered
    · intro hclosed
      have hclosed : s.board.closed = true := hclosed
      rw [opened] at hclosed
      cases hclosed
    · intro hclosed
      rw [opened] at hclosed
      cases hclosed
  | @announced event unsent =>
    have hopened : s.board.closed ≠ true := by
      intro hclosed
      rw [sound.closed hclosed] at unsent
      cases unsent
    refine sound.beside rfl (sound.kept.send event) (Nat.le_succ _) ?_ ?_ ?_
    · exact fun hclosed => absurd hclosed hopened
    · exact fun hclosed => absurd hclosed hopened
    · intro position x hposition _
      exact .inl (behind_send hposition (sound.position position hposition))
  | closed opened quiet =>
    refine sound.beside rfl sound.kept (Nat.le_refl _) (fun _ => quiet) ?_ ?_
    · intro hclosed
      rw [opened] at hclosed
      cases hclosed
    · exact fun _ _ _ h => h
  | subscribed idle =>
    refine sound.move ?_ (fun _ h => by cases h) (fun _ _ h => by cases h) ?_
    · intro position h
      cases h
      exact Nat.le_refl _
    · rintro position (h | h)
      · cases h
      · cases h
  | @sampled position due now =>
    refine sound.move ?_ (fun _ h => by cases h) ?_ ?_
    · intro other h
      cases h
      apply sound.position
      rw [due]
      rfl
    · intro other x h
      cases h
      exact StatusSummary.agrees_ofSnapshot s.board.snapshot now
    · rintro other (h | h)
      · cases h
      · cases h
  | wrote holding run =>
    exact sound.wrote holding (StatusSummary.writeFile_leaves path _ s.tree run)
  | received waiting more open? =>
    rcases Board.receive?_eq_some sound.kept more with ⟨-, -, hnext⟩ | ⟨hclosed, -⟩
    · refine sound.move ?_ (fun _ h => by cases h) (fun _ _ h => by cases h) ?_
      · intro other h
        cases h
        exact hnext
      · rintro other (h | h)
        · cases h
        · cases h
    · exact absurd hclosed open?
  | @ended position next waiting last =>
    rcases Board.receive?_eq_some sound.kept last with ⟨hopen, -⟩ | ⟨-, -, hclosed, hsent⟩
    · exact absurd rfl hopen
    · refine sound.move ?_ ?_ (fun _ _ h => by cases h) ?_
      · intro other h
        cases h
        apply sound.position
        rw [waiting]
        rfl
      · intro other h
        cases h
        exact ⟨hclosed, hsent⟩
      · intro other _
        obtain ⟨x, ⟨moments, hlast, hlands⟩, hfresh⟩ := sound.written position (.inl waiting)
        refine ⟨x, ⟨moments, ?_, hlands⟩, ?_⟩
        · rw [written?_concat_of_none rfl]
          exact hlast
        · unfold Fresh Behind at hfresh ⊢
          rw [waiting] at hfresh
          exact hfresh
  | elsewhere tree same =>
    exact {
      kept := sound.kept
      position := sound.position
      closed := sound.closed
      ended := sound.ended
      holding := sound.holding
      written := by
        intro position hphase
        obtain ⟨x, ⟨moments, hlast, hlands⟩, hfresh⟩ := sound.written position hphase
        refine ⟨x, ⟨moments, ?_, ?_⟩, hfresh⟩
        · rw [written?_concat_of_none rfl]
          exact hlast
        · exact hlands.imp_right fun ⟨mode, hfile⟩ => ⟨mode, same.trans hfile⟩ }

theorem Runs.sound {tree : Tree} (run : Runs path (Reporting.start tree) activities s) :
    Sound path activities s := by
  induction run with
  | start => exact sound_start path tree
  | step _ step ih => exact ih.step step

/-- With nothing under way there is nothing left to hear of. -/
theorem Sound.not_behind (sound : Sound path activities s) (settled : s.Settled) : ¬ s.Behind := by
  rintro (hunsent | ⟨position, hposition, hbehind⟩)
  · exact hunsent settled.unsent
  · have hsent : s.board.sent ≤ position := by
      rcases settled.consumed with ⟨other, hphase⟩ | ⟨other, hphase, hlast⟩
      · obtain ⟨-, hsent⟩ := sound.ended other hphase
        rw [hphase] at hposition
        cases hposition
        exact hsent
      · rw [hphase] at hposition
        obtain rfl : other = position := Option.some.inj hposition
        cases hreceive : s.board.receive? other with
        | none => exact (Board.receive?_eq_none hreceive).2
        | some got =>
          obtain ⟨reception, next⟩ := got
          rcases Board.receive?_eq_some sound.kept hreceive with ⟨hopen, -⟩ | ⟨-, -, -, hsent⟩
          · exact absurd (hlast _ _ hreceive) hopen
          · exact hsent
    exact absurd hbehind (Nat.not_lt.mpr hsent)

/-- What was written last is up to date when nothing is under way. -/
theorem Sound.current (sound : Sound path activities s) (settled : s.Settled) :
    Current path activities s := by
  have hphase : ∃ position, s.phase = .waiting position ∨ s.phase = .ended position := by
    rcases settled.consumed with ⟨position, hphase⟩ | ⟨position, hphase, -⟩
    · exact ⟨position, .inr hphase⟩
    · exact ⟨position, .inl hphase⟩
  obtain ⟨position, hphase⟩ := hphase
  obtain ⟨x, hstands, hfresh⟩ := sound.written position hphase
  rcases hfresh with hbehind | hagrees
  · exact absurd hbehind (sound.not_behind settled)
  · exact ⟨x, hstands, hagrees⟩

/-! ### The end -/

/-- At most so many steps the writer takes once the board is closed: three for everything that it
receives, and those that are left of its round. -/
def remaining (s : Reporting) : Nat :=
  match s.phase with
  | .idle => 4
  | .due position => 3 * (s.board.sent - position) + 3
  | .holding position _ => 3 * (s.board.sent - position) + 2
  | .waiting position => 3 * (s.board.sent - position) + 1
  | .ended _ => 0

/-- The board does not change any more once it is closed, and the writer gets on. -/
theorem Sound.step_closed (sound : Sound path activities s) (closed : s.board.closed = true)
    (step : Step path s activity s') :
    s'.board = s.board ∧ (if activity.isWriter then 1 else 0) + s'.remaining ≤ s.remaining := by
  cases step with
  | altered change opened =>
    rw [closed] at opened
    cases opened
  | announced unsent =>
    rw [sound.closed closed] at unsent
    cases unsent
  | closed opened quiet =>
    rw [closed] at opened
    cases opened
  | subscribed idle => simp [remaining, idle, Activity.isWriter, Board.subscribe]
  | sampled due now =>
    simp only [remaining, due, Activity.isWriter, if_true, true_and]
    omega
  | wrote holding run =>
    simp only [remaining, holding, Activity.isWriter, if_true, true_and]
    omega
  | received waiting more open? =>
    rcases Board.receive?_eq_some sound.kept more with ⟨-, hahead, hnext⟩ | ⟨hclosed, -⟩
    · simp only [remaining, waiting, Activity.isWriter, if_true, true_and]
      omega
    · exact absurd hclosed open?
  | ended waiting last =>
    simp only [remaining, waiting, Activity.isWriter, if_true, true_and]
    omega
  | elsewhere tree same =>
    simp [remaining, Activity.isWriter]

theorem Runs.closed (run : Runs path s more s') (sound : Sound path activities s)
    (closed : s.board.closed = true) :
    Sound path (activities ++ more) s' ∧ s'.board = s.board ∧
      more.countP Activity.isWriter + s'.remaining ≤ s.remaining := by
  induction run with
  | start => simp [sound]
  | @step s₁ s₂ between activity _ step ih =>
    obtain ⟨hsound, hboard, hcount⟩ := ih
    obtain ⟨hboard', hstep⟩ := hsound.step_closed (by rw [hboard]; exact closed) step
    refine ⟨?_, hboard'.trans hboard, ?_⟩
    · rw [← List.append_assoc]
      exact hsound.step step
    · rw [List.countP_append, List.countP_singleton]
      omega

/-- On a closed board the writer can always go on. -/
theorem exists_step (path : Path) (closed : s.board.closed = true) :
    (∃ position, s.phase = .ended position) ∨
      ∃ activity s', activity.isWriter = true ∧ Step path s activity s' := by
  cases hphase : s.phase with
  | idle => exact .inr ⟨_, _, rfl, .subscribed hphase⟩
  | due position => exact .inr ⟨_, _, rfl, .sampled hphase ⟨0⟩⟩
  | holding position x =>
    obtain ⟨moments, hrun⟩ := overFiles_run (x.writeFile path) s.tree
    exact .inr ⟨_, _, rfl, .wrote hphase hrun⟩
  | waiting position =>
    cases hreceive : s.board.receive? position with
    | none =>
      obtain ⟨hopened, -⟩ := Board.receive?_eq_none hreceive
      rw [closed] at hopened
      cases hopened
    | some got =>
      obtain ⟨reception, next⟩ := got
      by_cases hlast : reception = .closed
      · subst hlast
        exact .inr ⟨_, _, rfl, .ended hphase hreceive⟩
      · exact .inr ⟨_, _, rfl, .received hphase hreceive hlast⟩
  | ended position => exact .inl ⟨position, rfl⟩

/-- The status file follows the board. -/
structure KeepsUp (path : Path) (activities : List Activity) (s : Reporting) : Prop where
  /-- What was written last is up to date whenever nothing is under way. -/
  current : s.Settled → Current path activities s
  /-- On a closed board the writer goes on until it has ended, -/
  goesOn : s.board.closed = true → (∃ position, s.phase = .ended position) ∨
    ∃ activity s', activity.isWriter = true ∧ Step path s activity s'
  /-- takes a bounded number of steps, whatever else happens, -/
  bounded : s.board.closed = true → ∀ more s', Runs path s more s' →
    more.countP Activity.isWriter ≤ s.remaining
  /-- and has written the last snapshot when it ends. -/
  ends : s.board.closed = true → ∀ more s', Runs path s more s' →
    ∀ position, s'.phase = .ended position →
      ∃ x, Stands path (activities ++ more) s' x ∧ x.Agrees s.board.snapshot

/-- No update of the status file is lost, in whatever order operations and the writer take their
steps. -/
theorem no_update_lost {tree : Tree} (run : Runs path (.start tree) activities s) :
    KeepsUp path activities s where
  current := run.sound.current
  goesOn := exists_step path
  bounded := by
    intro hclosed more s' hmore
    obtain ⟨-, -, hcount⟩ := hmore.closed run.sound hclosed
    omega
  ends := by
    intro hclosed more s' hmore position hended
    obtain ⟨hsound, hboard, -⟩ := hmore.closed run.sound hclosed
    have hsettled : s'.Settled := {
      unsent := hsound.closed (by rw [hboard]; exact hclosed)
      consumed := .inl ⟨position, hended⟩ }
    rw [← hboard]
    exact hsound.current hsettled

/-- An event between a snapshot and its write is received after the write, and the file is written
again before the writer ends. -/
theorem no_update_lost_between :
    ∃ activities s, Runs ⟨"/status.toml"⟩ (.start .empty) activities s ∧ s.Settled ∧
      s.board.closed = true ∧ WritesGoThrough ⟨"/status.toml"⟩ activities ∧
      (s.tree.readText ⟨"/status.toml"⟩).toOption =
        some (StatusSummary.ofSnapshot { setup := .error } ⟨1⟩).text ∧
      KeepsUp ⟨"/status.toml"⟩ activities s := by
  obtain ⟨first, hfirst, hfirst'⟩ :=
    @StatusSummary.exists_writeFile_run ⟨"/status.toml"⟩ ⟨"/"⟩ (.ofSnapshot {} ⟨0⟩) .empty
      (by rfl) (by decide +kernel) (by decide +kernel)
  obtain ⟨second, hsecond, hsecond'⟩ :=
    @StatusSummary.exists_writeFile_run ⟨"/status.toml"⟩ ⟨"/"⟩
      (.ofSnapshot { setup := .error } ⟨1⟩)
      (Tree.empty.run ((StatusSummary.ofSnapshot {} ⟨0⟩).writeFile ⟨"/status.toml"⟩)).2
      (by rfl) (by decide +kernel) (by decide +kernel)
  have hbegun : Runs ⟨"/status.toml"⟩ (.start .empty) _ _ :=
    (Runs.start.step (.subscribed rfl)).step (.sampled rfl ⟨0⟩)
  have hbetween := (hbegun.step (.altered (.setup .error) rfl)).step (.wrote rfl hfirst)
  have hreceived := (hbetween.step (.announced List.mem_cons_self)).step (.received rfl rfl nofun)
  have hwritten := (hreceived.step (.sampled rfl ⟨1⟩)).step (.wrote rfl hsecond)
  have hended := (hwritten.step (.closed rfl rfl)).step (.ended rfl rfl)
  refine ⟨_, _, hended, ⟨rfl, .inl ⟨_, rfl⟩⟩, rfl, ?_, by decide +kernel, no_update_lost hended⟩
  exact List.forall_mem_cons.mpr ⟨hfirst', List.forall_mem_singleton.mpr hsecond'⟩

end Reporting

end Overseer
