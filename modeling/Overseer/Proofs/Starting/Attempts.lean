import Overseer.Proofs.Files.Opening
import Overseer.Proofs.Polling.Views
import Overseer.Supervisor

/-!
How far a supervisor has come.

A supervisor is one process: it starts, and goes on only with a start that went through
(`Startup.live`). `Stage` says what it has asked so far and what is left of it. Every question with
its answer leads from one stage to another (`Stage.step`), and what is asked at a stage follows from
the stage (`Stage.asking`): the directory, the lock file, its lock and its content in this order,
then only what concerns neither. `Written` is what a supervisor has made of the lock file by then.
-/

namespace Overseer

open Program

/-- What a supervisor asks for: what a start needs, and then effects. -/
@[reducible] def Life : Interface := LockFiles.sum Effects

/-- A question of a start with its answer. -/
def Startup.exchange (e : Exchange LockFiles) : Exchange Life := ⟨.inl e.op, e.answer⟩

theorem Program.Asks.each {I : Interface} {α β : Type} {allowed : I.Op → Prop}
    {f : α → Program I β} (h : ∀ a, Asks allowed (f a)) (l : List α) :
    Asks allowed (Program.each f l) := by
  induction l with
  | nil => exact Asks.done _
  | cons a rest ih => exact Asks.bind (h a) fun _ => Asks.bind ih fun _ => Asks.done _

theorem Program.Asks.left {I J : Interface} {α : Type} {allowed : I.Op → Prop} {p : Program I α}
    {allowed' : (I.sum J).Op → Prop} (around : Surroundings I) (hp : Asks allowed p)
    (h : ∀ op, allowed op → allowed' (.inl op)) : Asks allowed' (p.left : Program (I.sum J) α) := by
  induction p with
  | done a => exact Asks.done a
  | ask op next ih =>
    exact Asks.ask (h op (hp.first around)) fun answer => ih answer (hp.later answer)

theorem Program.left_bind {I J : Interface} {α β : Type} (p : Program I α)
    (f : α → Program I β) :
    ((p >>= f).left : Program (I.sum J) β) = p.left >>= fun a => (f a).left := by
  induction p with
  | done a => rfl
  | ask op next ih => exact congrArg (Program.ask _) (funext ih)

/-- A file operation that only looks. -/
def FileOp.Reads : FileOp → Prop
  | .readText _ => True
  | .readBytes _ => True
  | .isPresent _ => True
  | .isDirectory _ => True
  | .list _ => True
  | .mode _ => True
  | _ => False

theorem Tree.Carries.same_of_reads {t t' : Tree} {op : FileOp} {answer : op.Answer}
    (h : t.Carries ⟨op, answer⟩ t') (hreads : op.Reads) : t' = t := by
  cases h with
  | works => cases op <;> first | rfl | cases hreads
  | readBytes => rfl
  | mode => rfl
  | _ => cases hreads

/-! ### The line in the lock file -/

/-- The number is not mistaken for the end of its line. -/
theorem Instance.number_ne (pid : UInt32) : (Instance.number pid).toUTF8 ≠ "\n".toUTF8 := by
  intro h
  have hnumber : Instance.number pid = "\n" := String.toByteArray_inj.mp h
  have hmem : '\n' ∈ Nat.toDigits 10 pid.toNat := by
    rw [← Nat.toList_repr]
    change '\n' ∈ (Instance.number pid).toList
    rw [hnumber]
    decide
  exact absurd (Nat.isDigit_of_mem_toDigits (by decide) (by decide) hmem) (by decide)

/-- The two parts of the line are all of it. -/
theorem Instance.stamp_toUTF8 (pid : UInt32) :
    (Instance.stamp pid).toUTF8 = (Instance.number pid).toUTF8 ++ "\n".toUTF8 :=
  String.toByteArray_append ..

/-! ### The life of a supervisor -/

namespace Startup

section Programs

variable (work : Startup → Action Unit) (pid : UInt32) (dir : Path)

/-- A start that went through is the beginning of the supervisor's work, any other its end. -/
def goOn : Except StartError Startup → Program Life (Except StartError Unit)
  | .error e => return .error e
  | .ok startup => do
    (work startup).interpret fun effect => Program.call (I := Life) (.inr effect)
    return .ok ()

/-- A supervisor from its beginning to its end; what it does once it has started is left open. -/
def live : Program Life (Except StartError Unit) := (run pid (some dir)).left >>= goOn work

/-! The same question by question. -/

def afterWriting : Except IoFault Unit → Program Life (Except StartError Unit)
  | .error fault => .done (.error (.refused (.io (DataDir.lockFile dir) fault)))
  | .ok () => (files (load dir)).left >>= fun startup => goOn work (.ok startup)

def afterNumber : Except IoFault Unit → Program Life (Except StartError Unit)
  | .error fault => .done (.error (.refused (.io (DataDir.lockFile dir) fault)))
  | .ok () =>
    .ask (.inl (.file (.append (DataDir.lockFile dir) "\n".toUTF8))) (afterWriting work dir)

def afterEmptying : Except IoFault Unit → Program Life (Except StartError Unit)
  | .error fault => .done (.error (.refused (.io (DataDir.lockFile dir) fault)))
  | .ok () =>
    .ask (.inl (.file (.append (DataDir.lockFile dir) (Instance.number pid).toUTF8)))
      (afterNumber work dir)

def afterLocking : Bool → Program Life (Except StartError Unit)
  | false => .done (.error (.refused (.alreadyRunning (DataDir.lockFile dir))))
  | true => .ask (.inl (.file (.truncate (DataDir.lockFile dir)))) (afterEmptying work pid dir)

def afterOpening : Except IoFault Unit → Program Life (Except StartError Unit)
  | .error fault => .done (.error (.refused (.io (DataDir.lockFile dir) fault)))
  | .ok () => .ask (.inl (.tryLock (DataDir.lockFile dir))) (afterLocking work pid dir)

def afterMaking : Except IoFault Unit → Program Life (Except StartError Unit)
  | .error fault => .done (.error (.createDataDir dir fault))
  | .ok () =>
    .ask (.inl (.file (.openForUpdate (DataDir.lockFile dir)))) (afterOpening work pid dir)

theorem live_eq :
    live work pid dir =
      .ask (.inl (.file (.createDirectories dir))) (afterMaking work pid dir) := by
  refine congrArg (Program.ask _) (funext fun made => ?_)
  rcases made with fault | ⟨⟩
  · rfl
  refine congrArg (Program.ask _) (funext fun opened => ?_)
  rcases opened with fault | ⟨⟩
  · rfl
  refine congrArg (Program.ask _) (funext fun locked => ?_)
  cases locked with
  | false => rfl
  | true =>
    refine congrArg (Program.ask _) (funext fun emptied => ?_)
    rcases emptied with fault | ⟨⟩
    · rfl
    refine congrArg (Program.ask _) (funext fun numbered => ?_)
    rcases numbered with fault | ⟨⟩
    · rfl
    refine congrArg (Program.ask _) (funext fun ended => ?_)
    rcases ended with fault | ⟨⟩
    · rfl
    · have hleft := left_bind (J := Effects) (files (load dir))
        fun startup => (.done (.ok startup) : Program LockFiles (Except StartError Startup))
      exact (congrArg (· >>= goOn work) hleft).trans (Program.bind_assoc _ _ _)

end Programs

/-! ### Stages -/

/-- The data directory is there. -/
def dirMade (dir : Path) : Exchange Life := ⟨.inl (.file (.createDirectories dir)), .ok ()⟩

/-- The lock file can be read and written. -/
def fileOpened (dir : Path) : Exchange Life :=
  ⟨.inl (.file (.openForUpdate (DataDir.lockFile dir))), .ok ()⟩

/-- The lock was free or held. -/
def lockAnswered (dir : Path) (free : Bool) : Exchange Life :=
  ⟨.inl (.tryLock (DataDir.lockFile dir)), free⟩

/-- Nothing is left in the lock file. -/
def fileEmptied (dir : Path) : Exchange Life :=
  ⟨.inl (.file (.truncate (DataDir.lockFile dir))), .ok ()⟩

/-- The number stands in the lock file. -/
def numberWritten (pid : UInt32) (dir : Path) : Exchange Life :=
  ⟨.inl (.file (.append (DataDir.lockFile dir) (Instance.number pid).toUTF8)), .ok ()⟩

/-- The line of the lock file is complete, which is the end of taking the lock. -/
def lineEnded (dir : Path) : Exchange Life :=
  ⟨.inl (.file (.append (DataDir.lockFile dir) "\n".toUTF8)), .ok ()⟩

/-- What concerns neither the data directory nor its lock. -/
def Later : Life.Op → Prop
  | .inl (.file op) => op.Reads
  | .inl (.tryLock _) => False
  | .inr _ => True

/-- How far a supervisor has come: what it has asked, and what is left of it. -/
inductive Stage (work : Startup → Action Unit) (pid : UInt32) (dir : Path) :
    List (Exchange Life) → Program Life (Except StartError Unit) → Prop where
  | begun : Stage work pid dir []
      (.ask (.inl (.file (.createDirectories dir))) (afterMaking work pid dir))
  | unmade (fault : IoFault) :
      Stage work pid dir [⟨.inl (.file (.createDirectories dir)), .error fault⟩]
        (.done (.error (.createDataDir dir fault)))
  | made : Stage work pid dir [dirMade dir]
      (.ask (.inl (.file (.openForUpdate (DataDir.lockFile dir)))) (afterOpening work pid dir))
  | unopened (fault : IoFault) :
      Stage work pid dir
        [dirMade dir, ⟨.inl (.file (.openForUpdate (DataDir.lockFile dir))), .error fault⟩]
        (.done (.error (.refused (.io (DataDir.lockFile dir) fault))))
  | opened : Stage work pid dir [dirMade dir, fileOpened dir]
      (.ask (.inl (.tryLock (DataDir.lockFile dir))) (afterLocking work pid dir))
  | refused : Stage work pid dir [dirMade dir, fileOpened dir, lockAnswered dir false]
      (.done (.error (.refused (.alreadyRunning (DataDir.lockFile dir)))))
  | locked : Stage work pid dir [dirMade dir, fileOpened dir, lockAnswered dir true]
      (.ask (.inl (.file (.truncate (DataDir.lockFile dir)))) (afterEmptying work pid dir))
  | unemptied (fault : IoFault) :
      Stage work pid dir
        [dirMade dir, fileOpened dir, lockAnswered dir true,
          ⟨.inl (.file (.truncate (DataDir.lockFile dir))), .error fault⟩]
        (.done (.error (.refused (.io (DataDir.lockFile dir) fault))))
  | emptied : Stage work pid dir
      [dirMade dir, fileOpened dir, lockAnswered dir true, fileEmptied dir]
      (.ask (.inl (.file (.append (DataDir.lockFile dir) (Instance.number pid).toUTF8)))
        (afterNumber work dir))
  | unnumbered (fault : IoFault) :
      Stage work pid dir
        [dirMade dir, fileOpened dir, lockAnswered dir true, fileEmptied dir,
          ⟨.inl (.file (.append (DataDir.lockFile dir) (Instance.number pid).toUTF8)),
            .error fault⟩]
        (.done (.error (.refused (.io (DataDir.lockFile dir) fault))))
  | numbered : Stage work pid dir
      [dirMade dir, fileOpened dir, lockAnswered dir true, fileEmptied dir, numberWritten pid dir]
      (.ask (.inl (.file (.append (DataDir.lockFile dir) "\n".toUTF8))) (afterWriting work dir))
  | unended (fault : IoFault) :
      Stage work pid dir
        [dirMade dir, fileOpened dir, lockAnswered dir true, fileEmptied dir,
          numberWritten pid dir,
          ⟨.inl (.file (.append (DataDir.lockFile dir) "\n".toUTF8)), .error fault⟩]
        (.done (.error (.refused (.io (DataDir.lockFile dir) fault))))
  | acquired {more : List (Exchange Life)} {rest : Program Life (Except StartError Unit)}
      (before : ∀ e ∈ more, Later e.op) (after : Asks Later rest)
      (ends : Ensures rest fun _ result => result = .ok ()) :
      Stage work pid dir
        (dirMade dir :: fileOpened dir :: lockAnswered dir true :: fileEmptied dir ::
          numberWritten pid dir :: lineEnded dir :: more)
        rest

/-- What can be asked after what was asked so far. -/
inductive Asking (pid : UInt32) (dir : Path) : List (Exchange Life) → Life.Op → Prop where
  | making : Asking pid dir [] (.inl (.file (.createDirectories dir)))
  | opening : Asking pid dir [dirMade dir] (.inl (.file (.openForUpdate (DataDir.lockFile dir))))
  | locking : Asking pid dir [dirMade dir, fileOpened dir] (.inl (.tryLock (DataDir.lockFile dir)))
  | emptying : Asking pid dir [dirMade dir, fileOpened dir, lockAnswered dir true]
      (.inl (.file (.truncate (DataDir.lockFile dir))))
  | numbering : Asking pid dir [dirMade dir, fileOpened dir, lockAnswered dir true, fileEmptied dir]
      (.inl (.file (.append (DataDir.lockFile dir) (Instance.number pid).toUTF8)))
  | ending : Asking pid dir
      [dirMade dir, fileOpened dir, lockAnswered dir true, fileEmptied dir, numberWritten pid dir]
      (.inl (.file (.append (DataDir.lockFile dir) "\n".toUTF8)))
  | later {past : List (Exchange Life)} {op : Life.Op} (acquired : lineEnded dir ∈ past)
      (later : Later op) : Asking pid dir past op

/-- Answers that a supervisor can be given. -/
def plain : (op : Life.Op) → Life.Answer op
  | .inl (.file op) => Effect.plain (.file op)
  | .inl (.tryLock _) => true
  | .inr effect => Effect.plain effect

theorem read_asks (backlightDir : Path) : Asks FileOp.Reads (Display.read backlightDir) := by
  refine Asks.question (trivial : FileOp.Reads (.list backlightDir)) fun listing => ?_
  cases listing with
  | error fault => exact Asks.done _
  | ok entries =>
    apply Asks.bind
    · exact Asks.each (fun entry => Asks.question trivial fun _ => Asks.done _) entries
    · exact fun _ => Asks.done _

theorem load_asks (dir : Path) : Asks FileOp.Reads (load dir) := by
  apply Asks.bind
  · exact Asks.question trivial fun _ => Asks.done _
  · intro loaded
    exact Asks.bind (read_asks _) fun _ => Asks.done _

/-- After the lock file was written only what is later is asked, -/
theorem afterWriting_asks (work : Startup → Action Unit) (dir : Path) :
    Asks Later (afterWriting work dir (.ok ())) := by
  have hfiles : Asks (fun op => Later (.inl op)) (files (load dir)) :=
    Asks.interpret_of (fun _ op => Effect.plain (.file op)) (load_asks dir)
      fun op hreads => Asks.ask hreads fun _ => Asks.done _
  apply Asks.bind
  · exact hfiles.left (J := Effects) (fun _ op => plain (.inl op)) fun op hlater => hlater
  · intro startup
    apply Asks.bind
    · exact Asks.interpret fun effect => Asks.ask trivial fun _ => Asks.done _
    · exact fun _ => Asks.done _

/-- and then nothing fails that would end the supervisor. -/
theorem afterWriting_ends (work : Startup → Action Unit) (dir : Path) :
    Ensures (afterWriting work dir (.ok ())) fun _ result => result = .ok () := by
  refine Ensures.bind (Ensures.self _) fun first startup _ => ?_
  refine Ensures.bind (Ensures.self _) fun second u _ => ?_
  exact Ensures.done rfl

namespace Stage

variable {work : Startup → Action Unit} {pid : UInt32} {dir : Path} {past : List (Exchange Life)}
  {rest : Program Life (Except StartError Unit)}

theorem start (work : Startup → Action Unit) (pid : UInt32) (dir : Path) :
    Stage work pid dir [] (live work pid dir) := by
  rw [live_eq]
  exact .begun

/-- A question and its answer lead from one stage to another. -/
theorem step {op : Life.Op} {next : Life.Answer op → Program Life (Except StartError Unit)}
    (h : Stage work pid dir past (.ask op next)) (answer : Life.Answer op) :
    Stage work pid dir (past ++ [⟨op, answer⟩]) (next answer) := by
  cases h with
  | begun =>
    rcases answer with fault | ⟨⟩
    · exact .unmade fault
    · exact .made
  | made =>
    rcases answer with fault | ⟨⟩
    · exact .unopened fault
    · exact .opened
  | opened =>
    cases answer with
    | false => exact .refused
    | true => exact .locked
  | locked =>
    rcases answer with fault | ⟨⟩
    · exact .unemptied fault
    · exact .emptied
  | emptied =>
    rcases answer with fault | ⟨⟩
    · exact .unnumbered fault
    · exact .numbered
  | numbered =>
    rcases answer with fault | ⟨⟩
    · exact .unended fault
    · exact .acquired (by simp) (afterWriting_asks work dir) (afterWriting_ends work dir)
  | acquired before after ends =>
    refine .acquired ?_ (after.later answer) (ends.later answer)
    exact List.forall_mem_append.mpr ⟨before, by simpa using after.first fun _ => plain⟩

/-- What is asked at a stage. -/
theorem asking {op : Life.Op} {next : Life.Answer op → Program Life (Except StartError Unit)}
    (h : Stage work pid dir past (.ask op next)) : Asking pid dir past op := by
  cases h with
  | begun => exact .making
  | made => exact .opening
  | opened => exact .locking
  | locked => exact .emptying
  | emptied => exact .numbering
  | numbered => exact .ending
  | acquired before after ends => exact .later (by simp) (after.first fun _ => plain)

/-- Only those who opened the lock file asked for its lock. -/
theorem fileOpened_mem {free : Bool} (h : Stage work pid dir past rest)
    (hanswered : lockAnswered dir free ∈ past) : fileOpened dir ∈ past := by
  cases h with
  | begun => cases hanswered
  | unmade fault => cases List.mem_singleton.mp hanswered
  | made => cases List.mem_singleton.mp hanswered
  | unopened fault =>
    rcases List.mem_pair.mp hanswered with h | h
    · cases h
    · cases h
  | _ => simp

/-- Who is through with the line had taken the lock and written its number before. -/
theorem past_eq (h : Stage work pid dir past rest) (hended : lineEnded dir ∈ past) :
    ∃ more, past = dirMade dir :: fileOpened dir :: lockAnswered dir true :: fileEmptied dir ::
      numberWritten pid dir :: lineEnded dir :: more := by
  cases h with
  | acquired => exact ⟨_, rfl⟩
  | _ =>
    grind [lineEnded, dirMade, fileOpened, lockAnswered, fileEmptied, numberWritten,
      Instance.number_ne pid]

/-- A start is refused because of another supervisor exactly when it was told that the lock is held;
it has made the directory and opened the file before, and done nothing else. -/
theorem refused_iff (h : Stage work pid dir past rest) :
    rest = .done (.error (.refused (.alreadyRunning (DataDir.lockFile dir)))) ↔
      past = [dirMade dir, fileOpened dir, lockAnswered dir false] := by
  cases h with
  | refused => simp
  | acquired before after ends =>
    constructor
    · rintro rfl
      cases ends (.done _)
    · intro hpast
      cases hpast
  | _ =>
    constructor
    · intro h
      cases h
    · intro h
      cases h

end Stage

/-! ### Past the lock -/

/-- A successful conversation about the lock lies behind. -/
def Acquired (pid : UInt32) (dir : Path) (past : List (Exchange Life)) : Prop :=
  ∃ first trace more, Follows (Instance.acquire pid (DataDir.lockFile dir)) trace (.ok ()) ∧
    past = first :: (trace.map exchange ++ more)

theorem follows_acquire {pid : UInt32} {path : Path} {trace : List (Exchange LockFiles)} :
    Follows (Instance.acquire pid path) trace (.ok ()) ↔
      trace = [⟨.file (.openForUpdate path), .ok ()⟩, ⟨.tryLock path, true⟩,
        ⟨.file (.truncate path), .ok ()⟩,
        ⟨.file (.append path (Instance.number pid).toUTF8), .ok ()⟩,
        ⟨.file (.append path "\n".toUTF8), .ok ()⟩] := by
  constructor
  · intro h
    cases h with
    | ask opened h =>
      rcases opened with fault | ⟨⟩
      · cases h
      · cases h with
        | ask locked h =>
          cases locked with
          | false => cases h
          | true =>
            cases h with
            | ask emptied h =>
              rcases emptied with fault | ⟨⟩
              · cases h
              · cases h with
                | ask numbered h =>
                  rcases numbered with fault | ⟨⟩
                  · cases h
                  · cases h with
                    | ask ended h =>
                      rcases ended with fault | ⟨⟩
                      · cases h
                      · cases h
                        rfl
  · rintro rfl
    exact .ask _ (.ask _ (.ask _ (.ask _ (.ask _ (.done _)))))

theorem Stage.acquired_iff {work : Startup → Action Unit} {pid : UInt32} {dir : Path}
    {past : List (Exchange Life)} {rest : Program Life (Except StartError Unit)}
    (h : Stage work pid dir past rest) :
    Acquired pid dir past ↔ lineEnded dir ∈ past := by
  constructor
  · rintro ⟨first, trace, more, htrace, rfl⟩
    rw [follows_acquire.mp htrace]
    simp [exchange, lineEnded]
  · intro hended
    obtain ⟨more, hpast⟩ := h.past_eq hended
    exact ⟨dirMade dir, _, more, follows_acquire.mpr rfl, hpast⟩

/-- Who was refused was granted nothing and wrote nothing. -/
theorem lineEnded_not_mem (dir : Path) :
    lineEnded dir ∉ [dirMade dir, fileOpened dir, lockAnswered dir false] := by
  grind [lineEnded, dirMade, fileOpened, lockAnswered]

theorem lockAnswered_not_mem (dir : Path) :
    lockAnswered dir true ∉ [dirMade dir, fileOpened dir, lockAnswered dir false] := by
  grind [dirMade, fileOpened, lockAnswered]

/-! ### The content of the lock file -/

/-- An exchange of a supervisor that changes what is in the lock file. -/
inductive Marks (pid : UInt32) (dir : Path) : Exchange Life → Prop where
  | emptied : Marks pid dir (fileEmptied dir)
  | numbered : Marks pid dir (numberWritten pid dir)
  | ended : Marks pid dir (lineEnded dir)

/-- What a supervisor that was granted the lock has made of the lock file so far. -/
inductive Written (pid : UInt32) (dir : Path) : List (Exchange Life) → ByteArray → Prop where
  | emptied : Written pid dir
      [dirMade dir, fileOpened dir, lockAnswered dir true, fileEmptied dir] .empty
  | numbered : Written pid dir
      [dirMade dir, fileOpened dir, lockAnswered dir true, fileEmptied dir, numberWritten pid dir]
      (Instance.number pid).toUTF8
  | ended (more : List (Exchange Life)) : Written pid dir
      (dirMade dir :: fileOpened dir :: lockAnswered dir true :: fileEmptied dir ::
        numberWritten pid dir :: lineEnded dir :: more) (Instance.stamp pid).toUTF8

section Content

variable {pid : UInt32} {dir : Path} {past : List (Exchange Life)} {e : Exchange Life}
  {text : ByteArray}

/-- Nobody writes into the lock file that was not granted the lock, -/
theorem Written.granted (h : Written pid dir past text) : lockAnswered dir true ∈ past := by
  cases h <;> simp

theorem Asking.granted_of_marks (h : Asking pid dir past e.op) (marks : Marks pid dir e) :
    lockAnswered dir true ∈ past := by
  obtain ⟨op, answer⟩ := e
  cases h with
  | making | opening | locking => cases marks
  | emptying | numbering | ending => simp
  | later acquired later => cases marks <;> exact later.elim

/-- and nobody that is through with its line. -/
theorem Asking.not_ended_of_marks (h : Asking pid dir past e.op) (marks : Marks pid dir e) :
    lineEnded dir ∉ past := by
  obtain ⟨op, answer⟩ := e
  cases h with
  | later acquired later => cases marks <;> exact later.elim
  | _ => grind [lineEnded, dirMade, fileOpened, lockAnswered, fileEmptied, numberWritten,
      Instance.number_ne pid]

/-- How the content of the lock file comes about. -/
theorem Written.of_concat (h : Written pid dir (past ++ [e]) text) :
    (e = fileEmptied dir ∧ text = .empty) ∨
      (e = numberWritten pid dir ∧ text = (Instance.number pid).toUTF8 ∧
        Written pid dir past .empty) ∨
      (e = lineEnded dir ∧ text = (Instance.stamp pid).toUTF8 ∧
        Written pid dir past (Instance.number pid).toUTF8) ∨
      (lineEnded dir ∈ past ∧ Written pid dir past text) := by
  have hsplit (start : List (Exchange Life)) {last : Exchange Life}
      (hpast : past ++ [e] = start ++ [last]) : past = start ∧ e = last := by
    obtain ⟨hstart, hlast⟩ := List.append_inj' hpast rfl
    exact ⟨hstart, List.singleton_inj.mp hlast⟩
  generalize hpast : past ++ [e] = whole at h
  cases h with
  | emptied =>
    obtain ⟨-, rfl⟩ := hsplit [dirMade dir, fileOpened dir, lockAnswered dir true] hpast
    exact .inl ⟨rfl, rfl⟩
  | numbered =>
    obtain ⟨rfl, rfl⟩ :=
      hsplit [dirMade dir, fileOpened dir, lockAnswered dir true, fileEmptied dir] hpast
    exact .inr (.inl ⟨rfl, rfl, .emptied⟩)
  | ended more =>
    rcases List.eq_nil_or_concat' more with rfl | ⟨more, last, rfl⟩
    · obtain ⟨rfl, rfl⟩ := hsplit
        [dirMade dir, fileOpened dir, lockAnswered dir true, fileEmptied dir,
          numberWritten pid dir] hpast
      exact .inr (.inr (.inl ⟨rfl, rfl, .numbered⟩))
    · obtain ⟨rfl, -⟩ := hsplit
        (dirMade dir :: fileOpened dir :: lockAnswered dir true :: fileEmptied dir ::
          numberWritten pid dir :: lineEnded dir :: more) hpast
      exact .inr (.inr (.inr ⟨by simp, .ended more⟩))

/-- The first change empties the file, and every other one comes after such a one. -/
theorem Asking.written_of_marks (h : Asking pid dir past e.op) (marks : Marks pid dir e) :
    (e = fileEmptied dir ∧ Written pid dir (past ++ [e]) .empty) ∨
      ∃ text, Written pid dir past text := by
  generalize hop : e.op = op at h
  cases h with
  | making | opening | locking => cases marks <;> cases hop
  | emptying =>
    cases marks with
    | emptied => exact .inl ⟨rfl, .emptied⟩
    | numbered | ended => cases hop
  | numbering => exact .inr ⟨_, .emptied⟩
  | ending => exact .inr ⟨_, .numbered⟩
  | later acquired later =>
    subst hop
    cases marks <;> exact later.elim

/-- After each of its parts comes the next one, up to the end of the line. -/
theorem Written.next (h : Written pid dir past text) (hopen : lineEnded dir ∉ past)
    (asking : Asking pid dir past e.op) (marks : Marks pid dir e) :
    e = lineEnded dir ∨ ∃ text', Written pid dir (past ++ [e]) text' := by
  generalize hop : e.op = op at asking
  cases marks with
  | ended => exact .inl rfl
  | emptied =>
    cases h with
    | emptied =>
      cases asking with
      | numbering => cases hop
      | later acquired later => exact absurd acquired hopen
    | numbered =>
      cases asking with
      | ending => cases hop
      | later acquired later => exact absurd acquired hopen
    | ended more => simp at hopen
  | numbered =>
    cases h with
    | emptied => exact .inr ⟨_, .numbered⟩
    | numbered =>
      cases asking with
      | ending => grind [numberWritten, Instance.number_ne pid]
      | later acquired later => exact absurd acquired hopen
    | ended more => simp at hopen

end Content

end Startup

end Overseer
