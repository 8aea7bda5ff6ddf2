import Mathlib.Logic.Function.Basic
import Overseer.Proofs.Files.Writing
import Overseer.Proofs.Starting.Attempts

/-!
Supervisors that compete for one data directory.

Any number of supervisors come and go (`Contest.Step`), and each may be stopped between any two
questions. The system grants the lock on the lock file to one of them at a time and takes it back
when that one is gone; a lock file that was opened can be emptied and written. Otherwise a file
system may fail at any time, and files may be changed from outside and by supervisors that have
started, except that the lock file stays and is left alone.

At all times the lock is with the one that was granted it, the file that was opened for it is there,
and it contains what that one has written so far (`Contest.Sound`); so only the one that takes the
lock changes what is in the file (`Contest.Step.keeps_file`).
-/

namespace Overseer

open Program

/-- A supervisor that is running: what it has asked so far, and what is left of it. -/
structure Contestant where
  past : List (Exchange Life)
  rest : Program Life (Except StartError Unit)

/-- Files, the running supervisors by their process numbers, and the one that has the lock. -/
structure Contest where
  tree : Tree
  running : UInt32 → Option Contestant
  holder : Option UInt32

namespace Contest

/-- Nobody is running. -/
def start (tree : Tree) : Contest := ⟨tree, fun _ => none, none⟩

/-- What can happen. -/
inductive Move where
  | began (pid : UInt32)
  | asked (pid : UInt32) (e : Exchange Life)
  | stopped (pid : UInt32)
  | elsewhere

/-- The lock file is left alone. -/
structure Spares (dir : Path) (t t' : Tree) : Prop where
  holding : t'.holding? (DataDir.lockFile dir).place = t.holding? (DataDir.lockFile dir).place
  present : t.isPresent (DataDir.lockFile dir) = true → t'.isPresent (DataDir.lockFile dir) = true

/-- What a supervisor is answered, with the files and the holder of the lock after it. -/
inductive Answers (dir : Path) (s : Contest) (pid : UInt32) :
    Exchange Life → Tree → Option UInt32 → Prop where
  | file {op : FileOp} {answer : op.Answer} {tree : Tree}
      (carried : s.tree.Carries ⟨op, answer⟩ tree)
      (emptied : ∀ fault,
        (⟨op, answer⟩ : Exchange Files) ≠ ⟨.truncate (DataDir.lockFile dir), .error fault⟩)
      (written : ∀ more fault,
        (⟨op, answer⟩ : Exchange Files) ≠ ⟨.append (DataDir.lockFile dir) more, .error fault⟩) :
      Answers dir s pid ⟨.inl (.file op), answer⟩ tree s.holder
  | lock : Answers dir s pid (Startup.lockAnswered dir s.holder.isNone) s.tree
      (s.holder.or (some pid))
  | effect {effect : Effect} {answer : effect.Answer} {tree : Tree}
      (spares : Spares dir s.tree tree) :
      Answers dir s pid ⟨.inr effect, answer⟩ tree s.holder

inductive Step (work : Startup → Action Unit) (dir : Path) (s : Contest) :
    Move → Contest → Prop where
  | began {pid : UInt32} (free : s.running pid = none) :
      Step work dir s (.began pid)
        { s with
          running := Function.update s.running pid (some ⟨[], Startup.live work pid dir⟩) }
  | asked {pid : UInt32} {past : List (Exchange Life)} {e : Exchange Life}
      {next : Life.Answer e.op → Program Life (Except StartError Unit)} {tree : Tree}
      {holder : Option UInt32} (asks : s.running pid = some ⟨past, .ask e.op next⟩)
      (answers : Answers dir s pid e tree holder) :
      Step work dir s (.asked pid e)
        { tree
          running := Function.update s.running pid (some ⟨past ++ [e], next e.answer⟩)
          holder }
  | stopped {pid : UInt32} {c : Contestant} (running : s.running pid = some c) :
      Step work dir s (.stopped pid)
        { s with
          running := Function.update s.running pid none
          holder := if s.holder = some pid then none else s.holder }
  | elsewhere {tree : Tree} (spares : Spares dir s.tree tree) :
      Step work dir s .elsewhere { s with tree }

/-- Supervisors come and go. -/
inductive Runs (work : Startup → Action Unit) (dir : Path) (s : Contest) :
    List Move → Contest → Prop where
  | refl : Runs work dir s [] s
  | step {moves : List Move} {move : Move} {s₁ s' : Contest} (run : Runs work dir s moves s₁)
      (step : Step work dir s₁ move s') : Runs work dir s (moves ++ [move]) s'

/-! ### What is true at all times -/

/-- How a running supervisor stands: it is at some stage, it has the lock if that was granted, the
file it opened for it is there and contains what it has written. -/
structure Stands (work : Startup → Action Unit) (dir : Path) (tree : Tree) (holder : Option UInt32)
    (pid : UInt32) (c : Contestant) : Prop where
  staged : Startup.Stage work pid dir c.past c.rest
  granted : Startup.lockAnswered dir true ∈ c.past ↔ holder = some pid
  present : Startup.fileOpened dir ∈ c.past → tree.isPresent (DataDir.lockFile dir) = true
  written : ∀ {text}, Startup.Written pid dir c.past text →
    ∃ mode, tree.holding? (DataDir.lockFile dir).place = some (.file text mode)

/-- Everyone stands so, and only someone who is running has the lock. -/
structure Sound (work : Startup → Action Unit) (dir : Path) (s : Contest) : Prop where
  stands : ∀ {pid c}, s.running pid = some c → Stands work dir s.tree s.holder pid c
  held : ∀ {pid}, s.holder = some pid → ∃ c, s.running pid = some c

variable {work : Startup → Action Unit} {dir : Path} {s s' : Contest} {move : Move} {pid : UInt32}
  {e : Exchange Life} {tree : Tree} {holder : Option UInt32}

theorem sound_start (tree : Tree) : (start tree).Sound work dir where
  stands h := by cases h
  held h := by cases h

/-! ### What a start does to the files -/

theorem lockFile_leadsDown : Text.LeadsDown "supervisor.lock" where
  ne_empty := by decide
  ne_dot := by decide
  ne_dots := by decide
  not_slash := by decide

/-- What a start does to the files before it writes its number: it makes directories above the data
directory and an empty lock file, where nothing was. Once the lock file is there it does nothing. -/
structure Harmless (dir : Path) (t t' : Tree) : Prop where
  grows : ∀ place, t'.holding? place = t.holding? place ∨
    (t.holding? place = none ∧
      ((place ∈ dir.ancestors.map Path.place ∧ ∃ mode, t'.holding? place = some (.directory mode)) ∨
        (place = (DataDir.lockFile dir).place ∧
          ∃ mode, t'.holding? place = some (.file .empty mode))))
  same : t.isPresent (DataDir.lockFile dir) = true → ∀ place, t'.holding? place = t.holding? place

namespace Harmless

variable {t t' : Tree}

theorem refl (dir : Path) (t : Tree) : Harmless dir t t where
  grows _ := .inl rfl
  same _ _ := rfl

theorem of_made {answer : Except IoFault Unit}
    (h : t.Carries ⟨.createDirectories dir, answer⟩ t') : Harmless dir t t' where
  grows := by
    intro place
    rcases h.of_createDirectories place with hsame | ⟨hmem, hnone, hmade⟩
    · exact .inl hsame
    · exact .inr ⟨hnone, .inl ⟨hmem, hmade⟩⟩
  same hpresent := h.same_of_present lockFile_leadsDown hpresent

theorem of_opened {answer : Except IoFault Unit}
    (h : t.Carries ⟨.openForUpdate (DataDir.lockFile dir), answer⟩ t') : Harmless dir t t' := by
  rcases h.of_openForUpdate with ⟨-, -, ⟨rfl, -⟩ | ⟨hnone, mode, hsets⟩⟩ | ⟨fault, -, rfl⟩
  · exact refl dir t'
  · constructor
    · intro place
      by_cases hplace : place = (DataDir.lockFile dir).place
      · rw [hplace]
        exact .inr ⟨hnone, .inr ⟨rfl, mode, hsets.self⟩⟩
      · exact .inl (hsets.agreesBut place hplace)
    · intro hpresent
      obtain ⟨there, hthere⟩ := Tree.exists_holding_of_isPresent hpresent
      rw [hthere] at hnone
      cases hnone
  · exact refl dir t'

/-- What stood stays. -/
theorem holding?_eq_some (h : Harmless dir t t') {place : Place} {there : Holding}
    (hthere : t.holding? place = some there) : t'.holding? place = some there := by
  rcases h.grows place with hsame | ⟨hnone, -⟩
  · exact hsame.trans hthere
  · rw [hthere] at hnone
    cases hnone

theorem present (h : Harmless dir t t') (hpresent : t.isPresent (DataDir.lockFile dir) = true) :
    t'.isPresent (DataDir.lockFile dir) = true := by
  have hsame : t.SameDirectories t' := by
    intro place mode
    rw [h.same hpresent place]
  apply hsame.keeps.isPresent_of_isSome _ hpresent
  intro there hthere
  exact ⟨there, h.holding?_eq_some hthere⟩

end Harmless

/-! ### Answers -/

namespace Answers

/-- An answer to a supervisor is about its number in the lock file, comes when it has long written
it, or is harmless and comes before it has the lock. -/
theorem changes {past : List (Exchange Life)} (answers : Answers dir s pid e tree holder)
    (asking : Startup.Asking pid dir past e.op) :
    (Startup.Marks pid dir e ∧ tree.isPresent (DataDir.lockFile dir) = true) ∨
      (Startup.lineEnded dir ∈ past ∧ Spares dir s.tree tree) ∨
      ((∃ op, e.op = .inl op) ∧ Harmless dir s.tree tree ∧
        Startup.lockAnswered dir true ∉ past) := by
  cases answers with
  | lock =>
    cases asking with
    | locking =>
      refine .inr (.inr ⟨⟨_, rfl⟩, .refl dir s.tree, fun hmem => ?_⟩)
      exact Startup.lockAnswered_not_mem dir (List.mem_append_left [_] hmem)
    | later acquired later => exact later.elim
  | effect spares =>
    cases asking with
    | later acquired _ => exact .inr (.inl ⟨acquired, spares⟩)
  | file carried emptied written =>
    cases asking with
    | making => exact .inr (.inr ⟨⟨_, rfl⟩, .of_made carried, List.not_mem_nil⟩)
    | opening => exact .inr (.inr ⟨⟨_, rfl⟩, .of_opened carried, nofun⟩)
    | emptying =>
      rcases carried.of_truncate with ⟨rfl, hpresent, -⟩ | ⟨fault, rfl, -⟩
      · exact .inl ⟨.emptied, hpresent⟩
      · exact absurd rfl (emptied fault)
    | numbering =>
      rcases carried.of_append with ⟨rfl, hpresent, -⟩ | ⟨fault, rfl, -⟩
      · exact .inl ⟨.numbered, hpresent⟩
      · exact absurd rfl (written _ fault)
    | ending =>
      rcases carried.of_append with ⟨rfl, hpresent, -⟩ | ⟨fault, rfl, -⟩
      · exact .inl ⟨.ended, hpresent⟩
      · exact absurd rfl (written _ fault)
    | later acquired later =>
      obtain rfl := carried.same_of_reads later
      exact .inr (.inl ⟨acquired, rfl, id⟩)

/-- The lock is granted where it is free, and stays where it is otherwise. -/
theorem holder_eq (answers : Answers dir s pid e tree holder) :
    (e = Startup.lockAnswered dir true ∧ s.holder = none ∧ holder = some pid) ∨
      (e ≠ Startup.lockAnswered dir true ∧ holder = s.holder) := by
  cases answers with
  | file carried emptied written => exact .inr ⟨nofun, rfl⟩
  | effect spares => exact .inr ⟨nofun, rfl⟩
  | lock =>
    cases hholder : s.holder with
    | none => exact .inl ⟨rfl, rfl, rfl⟩
    | some other => exact .inr ⟨nofun, rfl⟩

/-- The lock is granted exactly if nobody has it. -/
theorem answer_eq {free : Bool}
    (answers : Answers dir s pid (Startup.lockAnswered dir free) tree holder) :
    free = s.holder.isNone := by
  cases answers with
  | lock => rfl

theorem emptied (answers : Answers dir s pid (Startup.fileEmptied dir) tree holder) :
    ∃ mode, tree.holding? (DataDir.lockFile dir).place = some (.file .empty mode) := by
  cases answers with
  | file carried =>
    rcases carried.of_truncate with ⟨-, -, mode, hsets⟩ | ⟨fault, hfault, -⟩
    · exact ⟨mode, hsets.self⟩
    · cases hfault

theorem added {content more : ByteArray} {mode : Nat}
    (answers : Answers dir s pid
      ⟨.inl (.file (.append (DataDir.lockFile dir) more)), .ok ()⟩ tree holder)
    (hfile : s.tree.holding? (DataDir.lockFile dir).place = some (.file content mode)) :
    ∃ mode, tree.holding? (DataDir.lockFile dir).place = some (.file (content ++ more) mode) := by
  cases answers with
  | file carried =>
    rcases carried.of_append with ⟨-, -, before, bits, mode', hbefore, hsets⟩ | ⟨fault, hfault, -⟩
    · cases hfile.symm.trans hbefore
      exact ⟨mode', hsets.self⟩
    · cases hfault

/-- What is in the lock file stays, unless the answer is about it. -/
theorem keeps_file {past : List (Exchange Life)} {content : ByteArray} {mode : Nat}
    (answers : Answers dir s pid e tree holder) (asking : Startup.Asking pid dir past e.op)
    (hmarks : ¬Startup.Marks pid dir e)
    (hfile : s.tree.holding? (DataDir.lockFile dir).place = some (.file content mode)) :
    tree.holding? (DataDir.lockFile dir).place = some (.file content mode) := by
  rcases answers.changes asking with ⟨marks, -⟩ | ⟨-, spares⟩ | ⟨-, harmless, -⟩
  · exact absurd marks hmarks
  · exact spares.holding.trans hfile
  · exact harmless.holding?_eq_some hfile

theorem present_of_opened (answers : Answers dir s pid (Startup.fileOpened dir) tree holder) :
    tree.isPresent (DataDir.lockFile dir) = true := by
  cases answers with
  | file carried =>
    rcases carried.of_openForUpdate with ⟨-, hpresent, -⟩ | ⟨fault, hfault, -⟩
    · exact hpresent
    · cases hfault

end Answers

/-! ### One step -/

namespace Step

/-- What a step means to one of the supervisors. -/
theorem running_cases (h : Step work dir s move s') (pid : UInt32) :
    s'.running pid = s.running pid ∨
      (move = .began pid ∧ s.running pid = none ∧
        s'.running pid = some ⟨[], Startup.live work pid dir⟩) ∨
      (∃ past e next, move = .asked pid e ∧ s.running pid = some ⟨past, .ask e.op next⟩ ∧
        s'.running pid = some ⟨past ++ [e], next e.answer⟩ ∧
        Answers dir s pid e s'.tree s'.holder) ∨
      (move = .stopped pid ∧ s'.running pid = none) := by
  cases h with
  | elsewhere spares => exact .inl rfl
  | @began other free =>
    by_cases hother : pid = other
    · subst hother
      exact .inr (.inl ⟨rfl, free, Function.update_self ..⟩)
    · exact .inl (Function.update_of_ne hother ..)
  | @asked other past e next tree holder asks answers =>
    by_cases hother : pid = other
    · subst hother
      exact .inr (.inr (.inl ⟨past, e, next, rfl, asks, Function.update_self .., answers⟩))
    · exact .inl (Function.update_of_ne hother ..)
  | @stopped other _ running =>
    by_cases hother : pid = other
    · subst hother
      exact .inr (.inr (.inr ⟨rfl, Function.update_self ..⟩))
    · exact .inl (Function.update_of_ne hother ..)

/-- What is in the lock file stays, unless a supervisor takes the lock. -/
theorem keeps_file (h : Step work dir s move s') (sound : s.Sound work dir)
    (hmove : ∀ pid e, move = .asked pid e → ¬Startup.Marks pid dir e)
    {content : ByteArray} {mode : Nat}
    (hfile : s.tree.holding? (DataDir.lockFile dir).place = some (.file content mode)) :
    s'.tree.holding? (DataDir.lockFile dir).place = some (.file content mode) := by
  cases h with
  | began free => exact hfile
  | stopped running => exact hfile
  | elsewhere spares => exact spares.holding.trans hfile
  | asked asks answers =>
    exact answers.keeps_file (sound.stands asks).staged.asking (hmove _ _ rfl) hfile

/-- The lock file stays. -/
theorem keeps_present (h : Step work dir s move s') (sound : s.Sound work dir)
    (hpresent : s.tree.isPresent (DataDir.lockFile dir) = true) :
    s'.tree.isPresent (DataDir.lockFile dir) = true := by
  cases h with
  | began free => exact hpresent
  | stopped running => exact hpresent
  | elsewhere spares => exact spares.present hpresent
  | asked asks answers =>
    rcases answers.changes (sound.stands asks).staged.asking with
      ⟨-, hpresent'⟩ | ⟨-, spares⟩ | ⟨-, harmless, -⟩
    · exact hpresent'
    · exact spares.present hpresent
    · exact harmless.present hpresent

end Step

theorem Stands.transfer {c : Contestant} {tree' : Tree} {holder' : Option UInt32}
    (h : Stands work dir tree holder pid c) (hholder : holder' = some pid ↔ holder = some pid)
    (hpresent : tree.isPresent (DataDir.lockFile dir) = true →
      tree'.isPresent (DataDir.lockFile dir) = true)
    (hfile : holder = some pid → ∀ {content mode},
      tree.holding? (DataDir.lockFile dir).place = some (.file content mode) →
        tree'.holding? (DataDir.lockFile dir).place = some (.file content mode)) :
    Stands work dir tree' holder' pid c where
  staged := h.staged
  granted := h.granted.trans hholder.symm
  present hopened := hpresent (h.present hopened)
  written hwritten := by
    obtain ⟨mode, hthere⟩ := h.written hwritten
    exact ⟨mode, hfile (h.granted.mp hwritten.granted) hthere⟩

/-- A state is sound if the one supervisor that changes stands as it should, and the others do. -/
theorem sound_update {c? : Option Contestant}
    (others : ∀ {other c}, other ≠ pid → s.running other = some c →
      Stands work dir tree holder other c)
    (own : ∀ {c}, c? = some c → Stands work dir tree holder pid c)
    (held : holder = some pid → ∃ c, c? = some c)
    (heldElse : ∀ {other}, other ≠ pid → holder = some other → ∃ c, s.running other = some c) :
    Sound work dir ⟨tree, Function.update s.running pid c?, holder⟩ where
  stands := by
    intro other c hc
    by_cases hother : other = pid
    · subst hother
      exact own ((Function.update_self other c? s.running).symm.trans hc)
    · exact others hother ((Function.update_of_ne hother c? s.running).symm.trans hc)
  held := by
    intro other hholder
    by_cases hother : other = pid
    · subst hother
      obtain ⟨c, hc⟩ := held hholder
      exact ⟨c, (Function.update_self other c? s.running).trans hc⟩
    · obtain ⟨c, hc⟩ := heldElse hother hholder
      exact ⟨c, (Function.update_of_ne hother c? s.running).trans hc⟩

/-- How the supervisor stands that got an answer. -/
theorem Answers.stands {past : List (Exchange Life)}
    {next : Life.Answer e.op → Program Life (Except StartError Unit)}
    (answers : Answers dir s pid e tree holder)
    (h : Stands work dir s.tree s.holder pid ⟨past, .ask e.op next⟩)
    (keeps : s.tree.isPresent (DataDir.lockFile dir) = true →
      tree.isPresent (DataDir.lockFile dir) = true) :
    Stands work dir tree holder pid ⟨past ++ [e], next e.answer⟩ where
  staged := h.staged.step e.answer
  granted := by
    have hpast : Startup.lockAnswered dir true ∈ past ↔ s.holder = some pid := h.granted
    rcases answers.holder_eq with ⟨rfl, -, rfl⟩ | ⟨hne, rfl⟩
    · simp
    · simp [hpast, Ne.symm hne]
  present := by
    intro hopened
    rcases List.mem_append.mp hopened with hpast | hlast
    · exact keeps (h.present hpast)
    · cases List.mem_singleton.mp hlast
      exact answers.present_of_opened
  written := by
    intro text hwritten
    rcases hwritten.of_concat with
      ⟨rfl, rfl⟩ | ⟨rfl, rfl, hbefore⟩ | ⟨rfl, rfl, hbefore⟩ | ⟨hended, hbefore⟩
    · exact answers.emptied
    · obtain ⟨mode, hthere⟩ := h.written hbefore
      simpa using answers.added hthere
    · obtain ⟨mode, hthere⟩ := h.written hbefore
      rw [Instance.stamp_toUTF8]
      exact answers.added hthere
    · obtain ⟨mode, hthere⟩ := h.written hbefore
      have hmarks : ¬Startup.Marks pid dir e := fun marks =>
        h.staged.asking.not_ended_of_marks marks hended
      exact ⟨mode, answers.keeps_file h.staged.asking hmarks hthere⟩

theorem sound_step (h : Step work dir s move s') (sound : s.Sound work dir) :
    s'.Sound work dir := by
  have keeps := h.keeps_present sound
  cases h with
  | began free =>
    apply sound_update
    · exact fun _ hc => sound.stands hc
    · intro c hc
      cases hc
      constructor
      · exact .start work _ dir
      · constructor
        · intro h
          cases h
        · intro hholder
          obtain ⟨c, hc⟩ := sound.held hholder
          rw [free] at hc
          cases hc
      · intro h
        cases h
      · intro text hwritten
        cases hwritten
    · exact fun _ => ⟨_, rfl⟩
    · exact fun _ hholder => sound.held hholder
  | asked asks answers =>
    apply sound_update
    · intro other c hother hc
      have stands := sound.stands asks
      apply (sound.stands hc).transfer _ keeps
      · intro hholder content mode hfile
        refine answers.keeps_file stands.staged.asking (fun marks => hother ?_) hfile
        have hown := stands.granted.mp (stands.staged.asking.granted_of_marks marks)
        exact Option.some.inj (hholder.symm.trans hown)
      · rcases answers.holder_eq with ⟨-, hnone, rfl⟩ | ⟨-, rfl⟩
        · rw [hnone]
          simp [Ne.symm hother]
        · rfl
    · intro c hc
      cases hc
      exact answers.stands (sound.stands asks) keeps
    · exact fun _ => ⟨_, rfl⟩
    · intro other hother hholder
      rcases answers.holder_eq with ⟨-, -, rfl⟩ | ⟨-, rfl⟩
      · exact absurd (Option.some.inj hholder).symm hother
      · exact sound.held hholder
  | @stopped pid c running =>
    have hholder {other : UInt32} (hother : other ≠ pid) :
        (if s.holder = some pid then none else s.holder) = some other ↔
          s.holder = some other := by
      by_cases hpid : s.holder = some pid
      · simp [hpid, Ne.symm hother]
      · rw [if_neg hpid]
    apply sound_update
    · exact fun hother hc => (sound.stands hc).transfer (hholder hother) id fun _ _ _ => id
    · intro c hc
      cases hc
    · intro hpid
      by_cases hheld : s.holder = some pid
      · simp [hheld] at hpid
      · rw [if_neg hheld] at hpid
        exact absurd hpid hheld
    · exact fun hother hpid => sound.held ((hholder hother).mp hpid)
  | elsewhere spares =>
    constructor
    · exact fun hc => (sound.stands hc).transfer Iff.rfl spares.present
        fun _ _ _ hfile => spares.holding.trans hfile
    · exact fun hholder => sound.held hholder

theorem Runs.sound {moves : List Move} (run : Runs work dir s moves s') (sound : s.Sound work dir) :
    s'.Sound work dir := by
  induction run with
  | refl => exact sound
  | step run step ih => exact sound_step step ih

/-! ### Runs that nothing comes between -/

/-- A supervisor begins, finds its directory and opens the lock file. -/
theorem Runs.begin (pid : UInt32) {s₀ : Contest} {moves : List Move} {t₁ t₂ : Tree}
    (run : Runs work dir s₀ moves s) (free : s.running pid = none)
    (made : s.tree.Carries ⟨.createDirectories dir, .ok ()⟩ t₁)
    (opened : t₁.Carries ⟨.openForUpdate (DataDir.lockFile dir), .ok ()⟩ t₂) :
    ∃ moves, Runs work dir s₀ moves
      { s with
        tree := t₂
        running := Function.update s.running pid (some
          ⟨[Startup.dirMade dir, Startup.fileOpened dir],
            .ask (.inl (.tryLock (DataDir.lockFile dir)))
              (Startup.afterLocking work pid dir)⟩) } := by
  have hbegan := run.step (.began free)
  rw [Startup.live_eq] at hbegan
  have hmade := hbegan.step
    (.asked (e := Startup.dirMade dir) (Function.update_self ..) (.file made nofun nofun))
  rw [Function.update_idem] at hmade
  have hopened := hmade.step
    (.asked (e := Startup.fileOpened dir) (Function.update_self ..) (.file opened nofun nofun))
  rw [Function.update_idem] at hopened
  exact ⟨_, hopened⟩

/-- The first supervisor takes the lock. -/
theorem Runs.take {s₀ : Contest} {moves : List Move} {t₁ t₂ t₃ : Tree}
    (run : Runs work dir s₀ moves s)
    (asks : s.running pid = some ⟨[Startup.dirMade dir, Startup.fileOpened dir],
      .ask (.inl (.tryLock (DataDir.lockFile dir))) (Startup.afterLocking work pid dir)⟩)
    (free : s.holder = none)
    (emptied : s.tree.Carries ⟨.truncate (DataDir.lockFile dir), .ok ()⟩ t₁)
    (numbered : t₁.Carries
      ⟨.append (DataDir.lockFile dir) (Instance.number pid).toUTF8, .ok ()⟩ t₂)
    (ended : t₂.Carries ⟨.append (DataDir.lockFile dir) "\n".toUTF8, .ok ()⟩ t₃) :
    ∃ moves, Runs work dir s₀ moves
      { tree := t₃
        running := Function.update s.running pid (some
          ⟨[Startup.dirMade dir, Startup.fileOpened dir, Startup.lockAnswered dir true,
            Startup.fileEmptied dir, Startup.numberWritten pid dir, Startup.lineEnded dir],
            Startup.afterWriting work dir (.ok ())⟩)
        holder := some pid } := by
  obtain ⟨tree, running, holder⟩ := s
  cases free
  have hlocked := run.step (.asked (e := Startup.lockAnswered dir true) asks .lock)
  have hemptied := hlocked.step
    (.asked (e := Startup.fileEmptied dir) (Function.update_self ..) (.file emptied nofun nofun))
  rw [Function.update_idem] at hemptied
  have hwritten {path path' : Path} (text more : ByteArray) (fault : IoFault) :
      (⟨.append path text, .ok ()⟩ : Exchange Files) ≠ ⟨.append path' more, .error fault⟩ := nofun
  have hnumbered := hemptied.step (.asked (e := Startup.numberWritten pid dir)
    (Function.update_self ..) (.file numbered nofun (hwritten _)))
  rw [Function.update_idem] at hnumbered
  have hended := hnumbered.step
    (.asked (e := Startup.lineEnded dir) (Function.update_self ..) (.file ended nofun (hwritten _)))
  rw [Function.update_idem] at hended
  exact ⟨_, hended⟩

end Contest

end Overseer
