import Overseer.Proofs.Files.Writing
import Overseer.Status.Writer

/-!
The writer of the status file beside the operations it reports.

An operation changes the snapshot first and sends its event later (`Board.post_eq`); the writer
subscribes, takes a snapshot, writes it and receives, one after the other. `Reporting.Step` lets all
of this happen in any order, with any number of operations under way, and `Reporting.Runs` are the
sequences of such steps. A writer that nothing comes between makes such steps
(`Reporting.runs_of_start`, `Reporting.runs_of_catchUpTo`).
-/

namespace Overseer

/-! ### Operations in two steps -/

namespace Board

/-- The first step of an operation: the change is there, and nobody was told. -/
def alter (b : Board) (change : StatusChange) : Board :=
  { b with
    snapshot := change.apply b.snapshot
    revision := if change.marks b.snapshot then b.revision + 1 else b.revision }

/-- An operation that nothing comes between changes the snapshot and then sends its event. -/
theorem post_eq (b : Board) (change : StatusChange) :
    b.post change = (change.event? b.snapshot).toList.foldl send (b.alter change) := by
  unfold post
  cases change.event? b.snapshot with
  | none => rfl
  | some event => rfl

variable {b : Board} {position next : Nat} {reception : Reception}

/-- All events that are kept were sent. -/
def KeepsSent (b : Board) : Prop := b.recent.length ≤ b.sent

theorem KeepsSent.send (h : b.KeepsSent) (event : StatusEvent) : (b.send event).KeepsSent := by
  unfold KeepsSent at h ⊢
  simp only [Board.send, List.length_drop, List.length_append, List.length_singleton]
  omega

/-- Who receives an event or hears of missed ones gets ahead; the end of a closed board comes after
all events. -/
theorem receive?_eq_some (h : b.KeepsSent)
    (hreceive : b.receive? position = some (reception, next)) :
    (reception ≠ .closed ∧ position < next ∧ next ≤ b.sent) ∨
      (reception = .closed ∧ next = position ∧ b.closed = true ∧ b.sent ≤ position) := by
  unfold KeepsSent at h
  unfold receive? at hreceive
  dsimp only at hreceive
  split at hreceive
  · rename_i hbehind
    cases hreceive
    exact .inl ⟨nofun, hbehind, Nat.sub_le _ _⟩
  · rename_i hkept
    cases hevent : b.recent[position - (b.sent - b.recent.length)]? with
    | some event =>
      rw [hevent] at hreceive
      cases hreceive
      obtain ⟨hindex, -⟩ := List.getElem?_eq_some_iff.mp hevent
      refine .inl ⟨nofun, Nat.lt_succ_self _, ?_⟩
      omega
    | none =>
      rw [hevent] at hreceive
      have hindex := List.getElem?_eq_none_iff.mp hevent
      cases hclosed : b.closed with
      | false => simp [hclosed] at hreceive
      | true =>
        simp only [hclosed, if_true, Option.some.injEq, Prod.mk.injEq] at hreceive
        obtain ⟨rfl, rfl⟩ := hreceive
        refine .inr ⟨rfl, rfl, rfl, ?_⟩
        omega

/-- Who has nothing to receive knows of all that was sent. -/
theorem receive?_eq_none (h : b.receive? position = none) :
    b.closed = false ∧ b.sent ≤ position := by
  unfold receive? at h
  dsimp only at h
  split at h
  · cases h
  · rename_i hkept
    cases hevent : b.recent[position - (b.sent - b.recent.length)]? with
    | some event =>
      rw [hevent] at h
      cases h
    | none =>
      rw [hevent] at h
      have hindex := List.getElem?_eq_none_iff.mp hevent
      cases hclosed : b.closed with
      | true => simp [hclosed] at h
      | false => exact ⟨rfl, by omega⟩

end Board

/-- What a writer does when it receives: it ends with the board, and otherwise writes. -/
theorem StatusWriter.step?_eq_some {w : StatusWriter} {board : Board} {now : Timestamp}
    {action : Program Files StatusWriter} (h : w.step? board now = some action) :
    w.ended = false ∧ ∃ reception next, board.receive? w.position = some (reception, next) ∧
      ((reception = .closed ∧ action = .done { w with ended := true }) ∨
        (reception ≠ .closed ∧ action = do
          write w.path board now
          return { w with position := next })) := by
  unfold step? at h
  split at h
  · cases h
  · rename_i hended
    constructor
    · simpa using hended
    · split at h
      · cases h
      · rename_i hreceive
        cases h
        exact ⟨_, _, hreceive, .inl ⟨rfl, rfl⟩⟩
      · rename_i hclosed hreceive
        cases h
        exact ⟨_, _, hreceive, .inr ⟨hclosed, rfl⟩⟩

/-! ### The system -/

namespace Reporting

/-- Where the writer is in its work. -/
inductive Phase where
  | idle
  /-- A snapshot is to be taken: the writer has subscribed, or received something. -/
  | due (position : Nat)
  /-- A snapshot was taken and is to be written. -/
  | holding (position : Nat) (summary : StatusSummary)
  /-- All is written, and the writer waits for events. -/
  | waiting (position : Nat)
  | ended (position : Nat)

/-- The writer's position in the sequence of events, once it has subscribed. -/
def Phase.position? : Phase → Option Nat
  | idle => none
  | due position => some position
  | holding position _ => some position
  | waiting position => some position
  | ended position => some position

/-- The phase of a writer between its steps. -/
def Phase.ofWriter (w : StatusWriter) : Phase :=
  if w.ended then .ended w.position else .waiting w.position

end Reporting

/-- The board, the events of operations under way, the writer and the files. -/
structure Reporting where
  board : Board
  /-- Of operations that have changed the snapshot, the events that they will send. -/
  unsent : List StatusEvent
  phase : Reporting.Phase
  tree : Tree

namespace Reporting

/-- A new board, and a writer that has not begun. -/
def start (tree : Tree) : Reporting := ⟨{}, [], .idle, tree⟩

/-- What shows of a step. -/
inductive Activity where
  /-- An operation changed the snapshot. -/
  | altered (change : StatusChange)
  /-- An operation sent its event. -/
  | announced (event : StatusEvent)
  /-- The board was closed. -/
  | closed
  | subscribed
  | sampled (now : Timestamp)
  /-- A summary was written, with what the file system did for it. -/
  | wrote (summary : StatusSummary) (moments : List Moment)
  | received (reception : Reception)
  | ended
  /-- Something else happened to the files. -/
  | elsewhere

/-- The step is one of the writer. -/
def Activity.isWriter : Activity → Bool
  | subscribed => true
  | sampled _ => true
  | wrote _ _ => true
  | received _ => true
  | ended => true
  | altered _ => false
  | announced _ => false
  | closed => false
  | elsewhere => false

/-- What was written in a step. -/
def Activity.written? : Activity → Option (StatusSummary × List Moment)
  | wrote summary moments => some (summary, moments)
  | _ => none

/-- One step of an operation, of the writer or of the files. -/
inductive Step (path : Path) (s : Reporting) : Activity → Reporting → Prop where
  /-- An operation begins; its event, if it has one, is still to be sent. -/
  | altered (change : StatusChange) (opened : s.board.closed = false) :
      Step path s (.altered change)
        { s with
          board := s.board.alter change
          unsent := s.unsent ++ (change.event? s.board.snapshot).toList }
  /-- An operation ends, whichever of those under way it is. -/
  | announced {event : StatusEvent} (unsent : event ∈ s.unsent) :
      Step path s (.announced event)
        { s with board := s.board.send event, unsent := s.unsent.erase event }
  /-- The board is closed, which nobody can do in the middle of an operation. -/
  | closed (opened : s.board.closed = false) (quiet : s.unsent = []) :
      Step path s .closed { s with board := s.board.close }
  | subscribed (idle : s.phase = .idle) :
      Step path s .subscribed { s with phase := .due s.board.subscribe }
  | sampled {position : Nat} (due : s.phase = .due position) (now : Timestamp) :
      Step path s (.sampled now)
        { s with phase := .holding position (.ofSnapshot s.board.snapshot now) }
  | wrote {position : Nat} {summary : StatusSummary} (holding : s.phase = .holding position summary)
      {moments : List Moment} {tree : Tree}
      (run : OverFiles s.tree (summary.writeFile path) moments () tree) :
      Step path s (.wrote summary moments) { s with phase := .waiting position, tree }
  | received {position next : Nat} {reception : Reception} (waiting : s.phase = .waiting position)
      (more : s.board.receive? position = some (reception, next)) (open? : reception ≠ .closed) :
      Step path s (.received reception) { s with phase := .due next }
  | ended {position next : Nat} (waiting : s.phase = .waiting position)
      (last : s.board.receive? position = some (.closed, next)) :
      Step path s .ended { s with phase := .ended position }
  /-- Other files change. -/
  | elsewhere (tree : Tree) (same : tree.holding? path.place = s.tree.holding? path.place) :
      Step path s .elsewhere { s with tree }

/-- Any number of steps, with what shows of them. -/
inductive Runs (path : Path) (s : Reporting) : List Activity → Reporting → Prop where
  | start : Runs path s [] s
  | step {s' s'' : Reporting} {activities : List Activity} {activity : Activity}
      (run : Runs path s activities s') (step : Step path s' activity s'') :
      Runs path s (activities ++ [activity]) s''

variable {path : Path} {s s' s'' : Reporting} {activities more : List Activity}

theorem Runs.trans (run : Runs path s activities s') (rest : Runs path s' more s'') :
    Runs path s (activities ++ more) s'' := by
  induction rest with
  | start =>
    rw [List.append_nil]
    exact run
  | step _ step ih =>
    rw [← List.append_assoc]
    exact ih.step step

/-! ### A writer that nothing comes between -/

/-- A snapshot that is taken and written at once. -/
theorem runs_of_write {position : Nat} {now : Timestamp} {moments : List Moment} {tree : Tree}
    (due : s.phase = .due position)
    (run : OverFiles s.tree (StatusWriter.write path s.board now) moments () tree) :
    Runs path s [.sampled now, .wrote (.ofSnapshot s.board.snapshot now) moments]
      { s with phase := .waiting position, tree } :=
  (Runs.start.step (.sampled due now)).step (.wrote rfl run)

/-- Starting is subscribing, taking a snapshot and writing it. -/
theorem runs_of_start {now : Timestamp} {moments : List Moment} {w : StatusWriter} {tree : Tree}
    (idle : s.phase = .idle)
    (run : OverFiles s.tree (StatusWriter.start path s.board now) moments w tree) :
    w.path = path ∧ Runs path s
      [.subscribed, .sampled now, .wrote (.ofSnapshot s.board.snapshot now) moments]
      { s with phase := .ofWriter w, tree } := by
  obtain ⟨first, second, _, t₁, rfl, hwrite, hlast⟩ := OverFiles.bind_iff.mp run
  cases hlast
  rw [List.append_nil]
  have hsubscribed : Runs path s [.subscribed] _ := Runs.start.step (.subscribed idle)
  exact ⟨rfl, hsubscribed.trans (runs_of_write rfl hwrite)⟩

/-- Receiving once is a few steps, as long as the board stays as it is. -/
theorem runs_of_step? {w w' : StatusWriter} {now : Timestamp} {action : Program Files StatusWriter}
    {moments : List Moment} {tree : Tree} (hpath : w.path = path) (phase : s.phase = .ofWriter w)
    (step : w.step? s.board now = some action) (run : OverFiles s.tree action moments w' tree) :
    w'.path = path ∧
      ∃ activities, Runs path s activities { s with phase := .ofWriter w', tree } := by
  subst hpath
  obtain ⟨hended, reception, next, hreceive, hrest⟩ := w.step?_eq_some step
  have hwaiting : s.phase = .waiting w.position := by simp [phase, Phase.ofWriter, hended]
  rcases hrest with ⟨rfl, rfl⟩ | ⟨hclosed, rfl⟩
  · cases run
    exact ⟨rfl, _, Runs.start.step (.ended hwaiting hreceive)⟩
  · obtain ⟨first, second, _, t₁, rfl, hwrite, hlast⟩ := OverFiles.bind_iff.mp run
    cases hlast
    have hreceived : Runs w.path s [.received reception] { s with phase := .due next } :=
      Runs.start.step (.received hwaiting hreceive hclosed)
    have hphase : Phase.ofWriter { w with position := next } = .waiting next := by
      simp [Phase.ofWriter, hended]
    rw [hphase]
    exact ⟨rfl, _, hreceived.trans (runs_of_write rfl hwrite)⟩

/-- So is receiving all there is. -/
theorem runs_of_catchUpTo {w w' : StatusWriter} {now : Timestamp} {room : Nat}
    {moments : List Moment} {tree : Tree} (hpath : w.path = path) (phase : s.phase = .ofWriter w)
    (run : OverFiles s.tree (StatusWriter.catchUpTo s.board now room w) moments w' tree) :
    ∃ activities, Runs path s activities { s with phase := .ofWriter w', tree } := by
  induction room generalizing s w moments with
  | zero =>
    cases run
    rw [← phase]
    exact ⟨[], .start⟩
  | succ room ih =>
    unfold StatusWriter.catchUpTo at run
    cases hstep : w.step? s.board now with
    | none =>
      rw [hstep] at run
      cases run
      rw [← phase]
      exact ⟨[], .start⟩
    | some action =>
      rw [hstep] at run
      obtain ⟨first, second, w₁, t₁, rfl, hfirst, hrest⟩ := OverFiles.bind_iff.mp run
      obtain ⟨hpath₁, activities, hruns⟩ := runs_of_step? hpath phase hstep hfirst
      obtain ⟨more, hmore⟩ :=
        ih (s := { s with phase := .ofWriter w₁, tree := t₁ }) hpath₁ rfl hrest
      exact ⟨_, hruns.trans hmore⟩

end Reporting

end Overseer
