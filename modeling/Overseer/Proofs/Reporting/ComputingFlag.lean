import Overseer.Proofs.Polling.Derivation
import Overseer.Proofs.Polling.Turns
import Overseer.Proofs.Reporting.LastSample
import Overseer.Proofs.Reporting.Sessions
import Overseer.Proofs.Reporting.StatusFile

/-!
The computing flag in the status file.

Every status that is read moves the flag on the board, but minimal reads and reads with something
missing announce nothing. So the file shows the flag as it stood at some moment since the last
event, and in every order of steps it shows the current one just when the flag has not changed since
then (`Snapshot.FlagTold`). A tick that reads everything brings this about, any other keeps it if it
leaves the flag alone (`Poller.Ticked.movesFlag`). `computing_since_last_event` is the main
statement.
-/

namespace Overseer

open Program

/-! ### Flags that were told of -/

namespace Snapshot

/-- The computing flag has not changed since the last event. -/
def FlagTold (s : Snapshot) (made : List StatusChange) : Prop :=
  ∀ shown, s.Since made shown → shown.computing = (s.after made).computing

variable {s s' : Snapshot} {made more : List StatusChange} {change : StatusChange}

theorem after_concat : s.after (made ++ [change]) = change.apply (s.after made) := by
  rw [after_append]
  rfl

/-- What changes make of the flag depends on nothing else. -/
theorem computing_after_congr (h : s'.computing = s.computing) (made : List StatusChange) :
    (s'.after made).computing = (s.after made).computing := by
  induction made generalizing s s' with
  | nil => exact h
  | cons change rest ih =>
    have happly : (change.apply s').computing = (change.apply s).computing := by
      cases change with
      | computing computing => rfl
      | _ => exact h
    exact ih happly

theorem flagTold_concat :
    s.FlagTold (made ++ [change]) ↔
      change.event? (s.after made) ≠ none ∨
        (s.FlagTold made ∧ (change.apply (s.after made)).computing = (s.after made).computing) := by
  unfold FlagTold
  simp only [since_concat, after_concat]
  cases hevent : change.event? (s.after made) with
  | some event => simp
  | none =>
    simp only [and_true, ne_eq, not_true_eq_false, false_or]
    constructor
    · intro h
      have hcomputing := h _ (.inr (since_after s made))
      refine ⟨fun shown hsince => ?_, hcomputing.symm⟩
      rw [hcomputing]
      exact h shown (.inr hsince)
    · rintro ⟨htold, hcomputing⟩ shown (rfl | hsince)
      · rfl
      · rw [hcomputing]
        exact htold shown hsince

theorem flagTold_iff_forall_lt :
    s.FlagTold made ↔ ∀ i < made.length + 1, (s.after (made.take i)).announced (made.drop i) = [] →
      (s.after (made.take i)).computing = (s.after made).computing := by
  constructor
  · intro h i _ hsilent
    exact h _ ⟨made.take i, made.drop i, (List.take_append_drop i made).symm, rfl, hsilent⟩
  · rintro h _ ⟨earlier, later, rfl, rfl, hsilent⟩
    have hi := h earlier.length (by rw [List.length_append]; omega)
    rw [List.take_left, List.drop_left] at hi
    exact hi hsilent

instance (s : Snapshot) (made : List StatusChange) : Decidable (s.FlagTold made) :=
  decidable_of_iff _ flagTold_iff_forall_lt.symm

/-- Numbers of notices tell nothing of the flag. -/
theorem FlagTold.notices (h : s.FlagTold made) (count : Nat) :
    s.FlagTold (made ++ [.notices count]) :=
  flagTold_concat.mpr (.inr ⟨h, rfl⟩)

end Snapshot

namespace Poller

open Snapshot

/-! ### Reads -/

/-- What a read of one kind posts, by its result: nothing if there is no status, the flag alone
unless it has everything, and otherwise the flag and then everything. -/
inductive ReadPosts (kind : ReadKind) : Except TickError Unit → List StatusChange → Prop where
  | nothing (e : TickError) : ReadPosts kind (.error e) []
  | flag (computing : Bool) {result : Except TickError Unit}
      (less : ¬(kind = .full ∧ result = .ok ())) : ReadPosts kind result [.computing computing]
  | whole (computing : Bool) (read : FullRead) (time : Timestamp) (arrived : Option Nat)
      (full : kind = .full) :
      ReadPosts kind (.ok ())
        (.computing computing :: .publish read time :: arrived.toList.map .notices)

theorem applyLocks_posts (p : Poller) (status : RunStatus) :
    Ensures (p.applyLocks status) fun trace p' =>
      posts trace = [.computing status.taskSuspendReason.computing] ∧
        p'.status = p.status.after (posts trace) := by
  refine (p.applyLocks_ensures status).mono ?_
  rintro trace p' ⟨hframe, -, hposts, -⟩
  rw [hposts, hframe]
  exact ⟨rfl, rfl⟩

theorem minimalRead_posts (p : Poller) :
    Ensures p.minimalRead fun trace (result, p') =>
      ReadPosts .minimal result (posts trace) ∧ p'.status = p.status.after (posts trace) := by
  apply Ensures.question
  intro answer
  cases answer with
  | error e => exact Ensures.done ⟨.nothing _, rfl⟩
  | ok status =>
    refine Ensures.bind (p.applyLocks_posts status) ?_
    rintro trace p' ⟨hposts, hstatus⟩
    refine Ensures.done ?_
    rw [List.append_nil]
    change ReadPosts _ _ (posts trace) ∧ p'.status = p.status.after (posts trace)
    refine ⟨?_, hstatus⟩
    rw [hposts]
    exact .flag _ (by simp)

theorem fullRead_posts (p : Poller) :
    Ensures p.fullRead fun trace (result, p') =>
      ReadPosts .full result (posts trace) ∧ p'.status = p.status.after (posts trace) := by
  rw [fullRead_eq]
  refine Ensures.bind (ask_ensures _) ?_
  rintro first answers ⟨-, hfirst⟩
  simp only [posts_append, hfirst, List.nil_append]
  cases hanswer : answers.status with
  | error e =>
    -- Without a status the batch is not complete.
    have hlacking : ¬∃ batch arrived, answers.Delivers batch arrived := by
      rintro ⟨batch, arrived, hdelivers⟩
      have hok := hdelivers.status
      rw [hanswer] at hok
      cases hok
    change Ensures (p.conclude answers) _
    rw [conclude_incomplete hlacking]
    exact Ensures.done ⟨.nothing _, rfl⟩
  | ok status =>
    refine Ensures.bind (p.applyLocks_posts status) ?_
    rintro second q ⟨hsecond, hstatus⟩
    unfold conclude
    cases answers.assemble q.status.notices with
    | none =>
      refine Ensures.done ⟨?_, ?_⟩
      · rw [List.append_nil, hsecond]
        exact .flag _ (by simp)
      · rw [List.append_nil]
        exact hstatus
    | some made =>
      refine Ensures.bind (q.publish_ensures made.1 made.2) ?_
      rintro third p' ⟨time, rfl, -, hthird⟩
      refine Ensures.done ?_
      have hnotices : (if q.notifyOnNotices then [StatusChange.notices made.2] else []) =
          (if q.notifyOnNotices then some made.2 else none).toList.map .notices := by
        cases q.notifyOnNotices <;> rfl
      rw [List.append_nil, posts_append, hthird, hnotices]
      refine ⟨?_, ?_⟩
      · rw [hsecond]
        exact .whole _ _ _ _ rfl
      · rw [after_append, ← hstatus]
        cases q.notifyOnNotices <;> rfl

theorem read_posts (p : Poller) (kind : ReadKind) :
    Ensures (p.read kind) fun trace (result, p') =>
      ReadPosts kind result (posts trace) ∧ p'.status = p.status.after (posts trace) := by
  cases kind with
  | minimal => exact p.minimalRead_posts
  | full => exact p.fullRead_posts

/-- A read that has everything announces it after the flag; any other announces nothing. -/
theorem ReadPosts.flagTold_iff {kind : ReadKind} {result : Except TickError Unit}
    {read : List StatusChange} (h : ReadPosts kind result read) (s : Snapshot)
    (made : List StatusChange) :
    (s.FlagTold (made ++ read) ↔ (kind = .full ∧ result = .ok ()) ∨
      (s.FlagTold made ∧ (s.after (made ++ read)).computing = (s.after made).computing)) ∧
    ((s.after made).announced read = [] ∨ (kind = .full ∧ result = .ok ())) := by
  cases h with
  | nothing e => simp [announced]
  | flag computing less =>
    refine ⟨?_, .inl rfl⟩
    rw [flagTold_concat, after_concat]
    simp [less, StatusChange.event?]
  | whole computing read time arrived full =>
    refine ⟨iff_of_true ?_ (.inl ⟨full, rfl⟩), .inr ⟨full, rfl⟩⟩
    have htold : s.FlagTold (made ++ [.computing computing] ++ [.publish read time]) :=
      flagTold_concat.mpr (.inl (Option.some_ne_none _))
    rw [List.append_assoc] at htold
    cases arrived with
    | none => exact htold
    | some count =>
      have hnotices := htold.notices count
      rw [List.append_assoc] at hnotices
      exact hnotices

/-! ### Setting up -/

/-- An attempt to set up ends with an event and leaves the flag alone. -/
theorem setUp_posts (p : Poller) :
    Ensures p.setUp fun trace (_, p') => p'.status.computing = p.status.computing ∧
      ∀ (s : Snapshot) (made : List StatusChange), s.FlagTold (made ++ posts trace) ∧
        (s.after (made ++ posts trace)).computing = (s.after made).computing ∧
          (s.after made).announced (posts trace) ≠ [] := by
  intro trace result hfollows
  obtain ⟨-, hsame, -⟩ := p.setUp_ensures hfollows
  refine ⟨hsame.computing, ?_⟩
  obtain ⟨first, second, ⟨ok, a⟩, rfl, hfirst, hsecond⟩ := follows_bind_iff.mp hfollows
  cases hsecond
  obtain ⟨read, -, hposts⟩ := p.plan.run_posts _ hfirst
  rw [List.append_nil, hposts]
  intro s made
  -- The outcome is never what the attempt began with.
  have hevent : (StatusChange.setup (.ofOutcome ok)).event?
      (s.after (made ++ ([.setup .launching] ++ read.toList.map .preferences))) ≠ none := by
    rw [after_append]
    cases read <;> cases ok <;>
      simp [after, StatusChange.apply, StatusChange.event?, SetupStatus.ofOutcome]
  refine ⟨?_, ?_, ?_⟩
  · rw [← List.append_assoc]
    exact flagTold_concat.mpr (.inl hevent)
  · rw [after_append]
    cases read <;> rfl
  · intro hnone
    rw [announced_concat_eq_nil_iff, ← after_append] at hnone
    exact hevent hnone.2

/-! ### Ticks -/

theorem map_eq_ok_full_iff {kind : ReadKind} {result : Except TickError Unit} :
    result.map (fun () => TickOutcome.read kind) = .ok (.read .full) ↔
      kind = .full ∧ result = .ok () := by
  cases result with
  | error e => simp [Except.map]
  | ok u => simp [Except.map]

/-- What becomes of the flag, and of whether it was told, with these changes and this outcome. -/
structure MovesFlag (p : Poller) (s : Snapshot) (made more : List StatusChange)
    (outcome : Except TickError TickOutcome) (p' : Poller) : Prop where
  computing : p'.status.computing = (s.after (made ++ more)).computing
  told_iff : s.FlagTold (made ++ more) ↔ outcome = .ok (.read .full) ∨
    (s.FlagTold made ∨ (s.after made).announced more ≠ []) ∧
      p'.status.computing = p.status.computing

variable {p p' : Poller} {s : Snapshot} {made : List StatusChange}

theorem poll_movesFlag {cadence : Cadence} {kind : ReadKind} {result : Except TickError Unit}
    {report rest : List (Exchange Effects)} (reported : Reports report)
    (answered : Follows (read { p with cadence } kind) rest (result, p'))
    (flag : p.status.computing = (s.after made).computing) :
    p.MovesFlag s made (posts (report ++ rest)) (result.map fun () => .read kind) p' := by
  obtain ⟨hposts, hstatus⟩ := read_posts _ kind answered
  obtain ⟨htold, hsilent⟩ := hposts.flagTold_iff s made
  rw [posts_append, Reports.posts_eq_nil reported, List.nil_append]
  have hcomputing : p'.status.computing = (s.after (made ++ posts rest)).computing := by
    rw [hstatus, after_append]
    exact computing_after_congr flag (posts rest)
  refine ⟨hcomputing, ?_⟩
  rw [htold, map_eq_ok_full_iff, hcomputing, flag]
  rcases hsilent with hsilent | hfull
  · simp [hsilent]
  · simp [hfull]

/-- After a tick the flag was told if everything was read. Otherwise it was if the tick leaves the
flag alone, and it was told before or the tick sets up. -/
theorem Ticked.movesFlag {trace : List (Exchange Effects)}
    {outcome : Except TickError TickOutcome} (ticked : p.Ticked trace outcome p')
    (flag : p.status.computing = (s.after made).computing) :
    p.MovesFlag s made (posts trace) outcome p' := by
  cases ticked with
  | unready looked failed =>
    rw [posts_append, posts_looks looked, List.nil_append]
    obtain ⟨hsame, hsetup⟩ := p.setUp_posts failed
    obtain ⟨htold, hkept, hannounced⟩ := hsetup s made
    exact ⟨by rw [hsame, hkept, flag], iff_of_true htold (.inr ⟨.inr hannounced, hsame⟩)⟩
  | alive looked reported answered =>
    rw [posts_append, posts_looks looked, List.nil_append]
    exact poll_movesFlag reported answered flag
  | ready looked prepared reported answered =>
    rw [posts_append, posts_looks looked, List.nil_append, posts_append]
    obtain ⟨hsame, hsetup⟩ := p.setUp_posts prepared
    obtain ⟨htold, hkept, hannounced⟩ := hsetup s made
    have hpolled := poll_movesFlag reported answered (by rw [hsame, hkept, flag])
    refine ⟨by rw [hpolled.computing, List.append_assoc], ?_⟩
    rw [← List.append_assoc, hpolled.told_iff, announced_append, hsame]
    simp [htold, hannounced]

end Poller

/-! ### Sessions -/

namespace Session

variable {w w' : Session} {trace : List (Exchange Effects)}

/-- The flag of a session is the one that its changes make. -/
theorem Runs.computing (fresh : w.Fresh) (run : w.Runs trace w') :
    w'.poller.status.computing = (Snapshot.after {} (posts trace)).computing := by
  refine run.invariant
    (fun past w => w.poller.status.computing = (Snapshot.after {} (posts past)).computing) ?_ ?_
  · cases fresh
    rfl
  · rintro past w more w' hpast ⟨q, hretuned, hrest⟩
    have hq : q.status.computing = (Snapshot.after {} (posts past)).computing := by
      rw [hretuned.frame.1]
      exact hpast
    rcases hrest with ⟨rfl, rfl⟩ | ⟨outcome, hticked⟩
    · rw [List.append_nil]
      exact hq
    · rw [posts_append]
      exact (hticked.movesFlag hq).computing

end Session

open Reporting

/-- How the status file follows the computing flag, if a session makes the changes on the board. -/
structure FlagShown (path : Path) (tree : Tree) (w : Session) (trace : List (Exchange Effects)) :
    Prop where
  /-- The session's flag is the one on the board. -/
  board : ∀ activities s, Runs path (.start tree) activities s → changes activities = posts trace →
    s.board.snapshot.computing = w.poller.status.computing
  /-- When nothing is under way, the file shows the flag of a snapshot since the last event. -/
  since : ∀ activities s, Runs path (.start tree) activities s → changes activities = posts trace →
    s.Settled → ∃ x shown, Snapshot.Since {} (posts trace) shown ∧ Stands path activities s x ∧
      x.computing = shown.computing
  /-- This is the current flag in every order of steps just when the flag has not changed since. -/
  current_iff : (∀ activities s, Runs path (.start tree) activities s →
      changes activities = posts trace → s.Settled →
      ∃ x, Stands path activities s x ∧ x.computing = w.poller.status.computing) ↔
    Snapshot.FlagTold {} (posts trace)
  /-- A tick that reads everything sees to this. Any other does if it leaves the flag alone, and it
  was so before or the tick announces something. -/
  tick_iff : ∀ q more outcome p', w.poller.Retuned q → q.Ticked more outcome p' →
    (Snapshot.FlagTold {} (posts (trace ++ more)) ↔ outcome = .ok (.read .full) ∨
      (Snapshot.FlagTold {} (posts trace) ∨
          (Snapshot.after {} (posts trace)).announced (posts more) ≠ []) ∧
        p'.status.computing = w.poller.status.computing)

/-- Whatever a session reads and whatever fails in it, the status file shows the computing flag as
it stood at some moment since the last event. -/
theorem computing_since_last_event {w w' : Session} {trace : List (Exchange Effects)}
    (fresh : w.Fresh) (run : w.Runs trace w') (path : Path) (tree : Tree) :
    FlagShown path tree w' trace := by
  have hflag := run.computing fresh
  have hsince : ∀ activities s, Runs path (.start tree) activities s →
      changes activities = posts trace → s.Settled →
      ∃ x shown, Snapshot.Since {} (posts trace) shown ∧ Stands path activities s x ∧
        x.computing = shown.computing := by
    intro activities s hrun hchanges hsettled
    obtain ⟨shown, hsince, now, hstands⟩ := hrun.shows hsettled
    exact ⟨_, shown, hchanges ▸ hsince, hstands, rfl⟩
  constructor
  · intro activities s hrun hchanges
    rw [hflag, ← hchanges, hrun.advances.snapshot]
    rfl
  · exact hsince
  · constructor
    · intro hcurrent shown hshown
      obtain ⟨moments, hwrite⟩ :=
        overFiles_run ((StatusSummary.ofSnapshot shown ⟨0⟩).writeFile path) tree
      obtain ⟨activities, s, hrun, hchanges, hsettled, hwritten, -⟩ := exists_shows hshown hwrite
      obtain ⟨x, ⟨moments', hlast, -⟩, hx⟩ := hcurrent activities s hrun hchanges hsettled
      rw [written?, hwritten] at hlast
      cases hlast
      rw [← hflag]
      exact hx
    · intro htold activities s hrun hchanges hsettled
      obtain ⟨x, shown, hshown, hstands, hx⟩ := hsince activities s hrun hchanges hsettled
      exact ⟨x, hstands, by rw [hx, htold shown hshown, hflag]⟩
  · intro q more outcome p' hretuned hticked
    have hq : q.status.computing = (Snapshot.after {} (posts trace)).computing := by
      rw [hretuned.frame.1]
      exact hflag
    have hmoves := hticked.movesFlag hq
    rw [posts_append, hmoves.told_iff, hretuned.frame.1]

/-! ### A read that nobody hears of -/

/-- The answers of surroundings in which the worker gives this reason. -/
def Effect.reasoning (reason : SuspendReason) : (effect : Effect) → effect.Answer
  | .channel (.call .getStatus) => .ok ⟨reason, .notSuspended, 2, 2⟩
  | .file (.mode _) => .ok 0o755
  | effect => effect.plain

/-- A session that starts with the screen off, and installs without comparing contents. -/
def screenOffSession : Session :=
  .start (.ofConfig { worker := { forceReinstall := true } } .arm64 ⟨"", ""⟩ false) 0

/-- Its first tick, which sets up and then reads everything. -/
def setUpRun : List (Wake × Turn) × Session :=
  screenOffSession.play (Effect.reasoning .notSuspended) [.tick]

/-- Its second tick, with a minimal read. -/
def minimalRun : List (Wake × Turn) × Session :=
  setUpRun.2.play (Effect.reasoning .batteries) [.tick]

/-- All that was exchanged in these turns. -/
def traceOf (turns : List (Wake × Turn)) : List (Exchange Effects) :=
  (turns.map Prod.snd).flatMap Turn.trace

theorem runs_setUpRun : screenOffSession.Runs (traceOf setUpRun.1) setUpRun.2 :=
  (screenOffSession.turns_play _).runs

theorem runs_minimalRun :
    screenOffSession.Runs (traceOf setUpRun.1 ++ traceOf minimalRun.1) minimalRun.2 :=
  runs_setUpRun.trans (setUpRun.2.turns_play _).runs

/-- After everything was read, the file shows that the worker computes in every order of steps. -/
theorem computing_since_last_event_full :
    screenOffSession.Fresh ∧ screenOffSession.Runs (traceOf setUpRun.1) setUpRun.2 ∧
      setUpRun.2.poller.status.computing = true ∧
      Snapshot.FlagTold {} (posts (traceOf setUpRun.1)) ∧
      FlagShown ⟨"/status.toml"⟩ .empty setUpRun.2 (traceOf setUpRun.1) := by
  have hfresh : screenOffSession.Fresh := .start _ _ _ _ _
  exact ⟨hfresh, runs_setUpRun, by rfl, by decide +kernel,
    computing_since_last_event hfresh runs_setUpRun _ _⟩

/-- A summary of what shows after the first tick. -/
def setUpSummary : StatusSummary :=
  .ofSnapshot (Snapshot.after {} (posts (traceOf setUpRun.1))) ⟨0⟩

theorem ofBytes?_setUpSummary :
    StatusSummary.ofBytes? setUpSummary.text.toUTF8 = some setUpSummary := by
  refine StatusSummary.ofBytes?_text (StatusSummary.writable_ofSnapshot ?_ _)
  intro read hread
  cases hread
  exact ⟨⟨⟨0, rfl⟩, ⟨0, rfl⟩⟩, by decide, by decide, by decide, by decide⟩

theorem readBytes_setUpSummary :
    (Tree.run (setUpSummary.writeFile ⟨"/status.toml"⟩) .empty).2.readBytes ⟨"/status.toml"⟩ =
      .ok setUpSummary.text.toUTF8 := by
  rfl

/-- A minimal read that finds the worker suspended announces nothing: with all events received and
every write gone through, the file still shows that it computes. -/
theorem computing_left_behind :
    ∃ activities s, screenOffSession.Fresh ∧
      screenOffSession.Runs (traceOf setUpRun.1 ++ traceOf minimalRun.1) minimalRun.2 ∧
      Runs ⟨"/status.toml"⟩ (.start .empty) activities s ∧
      changes activities = posts (traceOf setUpRun.1 ++ traceOf minimalRun.1) ∧ s.Settled ∧
      WritesGoThrough ⟨"/status.toml"⟩ activities ∧ s.board.snapshot.computing = false ∧
      ((s.tree.readBytes ⟨"/status.toml"⟩).toOption.bind StatusSummary.ofBytes?).map
        StatusSummary.computing = some true := by
  have hshown : Snapshot.Since {} (posts (traceOf setUpRun.1 ++ traceOf minimalRun.1))
      (Snapshot.after {} (posts (traceOf setUpRun.1))) :=
    ⟨_, _, posts_append .., rfl, rfl⟩
  obtain ⟨moments, hwrite, hwent⟩ :=
    @StatusSummary.exists_writeFile_run ⟨"/status.toml"⟩ ⟨"/"⟩ setUpSummary .empty (by rfl)
      (by rfl) (by rfl)
  obtain ⟨activities, s, hrun, hchanges, hsettled, hwritten, htree⟩ := exists_shows hshown hwrite
  have hfresh : screenOffSession.Fresh := .start _ _ _ _ _
  refine ⟨activities, s, hfresh, runs_minimalRun, hrun, hchanges, hsettled, ?_, ?_, ?_⟩
  · rw [WritesGoThrough, hwritten]
    exact List.forall_mem_singleton.mpr hwent
  · rw [hrun.advances.snapshot, hchanges]
    rfl
  · rw [htree, readBytes_setUpSummary, Except.toOption, Option.bind_some, ofBytes?_setUpSummary]
    rfl

end Overseer
