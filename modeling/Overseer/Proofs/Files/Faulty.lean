import Overseer.Program
import Overseer.Proofs.Files.Changing

/-!
File systems that may fail.

An answer of a file system is never wrong, but an operation may fail for any reason, wherever it is
in its work: a copy or a write that fails may leave a torn file, and of nested directories some may
be made.
Renaming is one step. `OverFiles` are the runs of a program over such a file system, with all trees
that it passes through; a tree in memory is one (`overFiles_run`).
-/

namespace Overseer

open Program

/-- What a file system answers to an operation and leaves behind. -/
inductive Tree.Carries (t : Tree) : Exchange Files → Tree → Prop where
  | works (op : FileOp) : Carries t ⟨op, (t.perform op).1⟩ (t.perform op).2
  | readBytes (path : Path) (fault : IoFault) : Carries t ⟨.readBytes path, .error fault⟩ t
  | mode (path : Path) (fault : IoFault) : Carries t ⟨.mode path, .error fault⟩ t
  | setMode (path : Path) (mode : Nat) (fault : IoFault) :
      Carries t ⟨.setMode path mode, .error fault⟩ t
  | rename (source path : Path) (fault : IoFault) :
      Carries t ⟨.rename source path, .error fault⟩ t
  | remove (path : Path) (fault : IoFault) : Carries t ⟨.remove path, .error fault⟩ t
  | copy (source path : Path) (fault : IoFault) : Carries t ⟨.copy source path, .error fault⟩ t
  /-- The copy was begun; any content may be there, with any permission bits. -/
  | torn (source path : Path) (fault : IoFault) {mode bits : Nat} {place : Place}
      (target : t.target path [.write] mode = .ok (place, bits)) (content : ByteArray)
      (left : Nat) : Carries t ⟨.copy source path, .error fault⟩ (t.put place (.file content left))
  | write (path : Path) (content : ByteArray) (fault : IoFault) :
      Carries t ⟨.write path content, .error fault⟩ t
  /-- The write was begun; any content may be there. -/
  | tornWrite (path : Path) (content : ByteArray) (fault : IoFault) {mode bits : Nat}
      {place : Place} (target : t.target path [.write] mode = .ok (place, bits))
      (left : ByteArray) :
      Carries t ⟨.write path content, .error fault⟩ (t.put place (.file left bits))
  /-- Some of the directories above were made. -/
  | createDirectories (path : Path) (fault : IoFault) {above : List Path}
      (part : above <:+ path.ancestors) :
      Carries t ⟨.createDirectories path, .error fault⟩ (Tree.createAlong above t).2

/-- An exchange with a file system, and the tree after it. -/
structure Moment where
  exchange : Exchange Files
  after : Tree

/-- A program runs over a file system, from one tree to another. -/
inductive OverFiles {α : Type} : Tree → Program Files α → List Moment → α → Tree → Prop where
  | done (t : Tree) (a : α) : OverFiles t (.done a) [] a t
  | ask {t t₁ t' : Tree} {op : FileOp} {next : op.Answer → Program Files α} {answer : op.Answer}
      {moments : List Moment} {a : α} (carried : t.Carries ⟨op, answer⟩ t₁)
      (rest : OverFiles t₁ (next answer) moments a t') :
      OverFiles t (.ask op next) (⟨⟨op, answer⟩, t₁⟩ :: moments) a t'

theorem OverFiles.bind_iff {α β : Type} {p : Program Files α} {f : α → Program Files β}
    {t t' : Tree} {moments : List Moment} {b : β} :
    OverFiles t (p >>= f) moments b t' ↔
      ∃ first second a t₁, moments = first ++ second ∧ OverFiles t p first a t₁ ∧
        OverFiles t₁ (f a) second b t' := by
  induction p generalizing t moments with
  | done a =>
    constructor
    · intro h
      exact ⟨[], moments, a, t, rfl, .done t a, h⟩
    · rintro ⟨first, second, a', t₁, rfl, hfirst, hsecond⟩
      cases hfirst
      exact hsecond
  | ask op next ih =>
    rw [ask_bind]
    constructor
    · intro h
      cases h with
      | ask carried rest =>
        obtain ⟨first, second, a, t₁, rfl, hfirst, hsecond⟩ := (ih _).mp rest
        exact ⟨_ :: first, second, a, t₁, rfl, .ask carried hfirst, hsecond⟩
    · rintro ⟨first, second, a, t₁, rfl, hfirst, hsecond⟩
      cases hfirst with
      | ask carried rest =>
        exact .ask carried ((ih _).mpr ⟨_, second, a, t₁, rfl, rest, hsecond⟩)

/-- A tree in memory carries out programs. -/
theorem overFiles_run {α : Type} (p : Program Files α) (t : Tree) :
    ∃ moments, OverFiles t p moments (t.run p).1 (t.run p).2 := by
  induction p generalizing t with
  | done a => exact ⟨[], .done t a⟩
  | ask op next ih =>
    obtain ⟨moments, hrest⟩ := ih (t.perform op).1 (t.perform op).2
    exact ⟨_, .ask (.works op) hrest⟩

/-! ### Rules -/

/-- Every run of the program from this tree, with its result, satisfies the postcondition. -/
def Leaves {α : Type} (t : Tree) (p : Program Files α)
    (post : List Moment → α → Tree → Prop) : Prop :=
  ∀ ⦃moments a t'⦄, OverFiles t p moments a t' → post moments a t'

namespace Leaves

variable {α β : Type} {t : Tree} {p : Program Files α} {f : α → Program Files β}
  {post post' : List Moment → α → Tree → Prop} {goal : List Moment → β → Tree → Prop}

theorem done {a : α} (h : post [] a t) : Leaves t (.done a) post := by
  intro moments b t' hrun
  cases hrun
  exact h

/-- A question, and what the program does after each answer to it. -/
theorem question {op : FileOp} {f : op.Answer → Program Files β}
    (h : ∀ answer t₁, t.Carries ⟨op, answer⟩ t₁ →
      Leaves t₁ (f answer) fun moments b t' => goal (⟨⟨op, answer⟩, t₁⟩ :: moments) b t') :
    Leaves t (Program.call (I := Files) op >>= f) goal := by
  intro moments b t' hrun
  cases hrun with
  | ask carried rest => exact h _ _ carried rest

theorem call {op : FileOp} {post : List Moment → op.Answer → Tree → Prop}
    (h : ∀ answer t₁, t.Carries ⟨op, answer⟩ t₁ → post [⟨⟨op, answer⟩, t₁⟩] answer t₁) :
    Leaves t (Program.call (I := Files) op) post := by
  intro moments a t' hrun
  cases hrun with
  | ask carried rest =>
    cases rest
    exact h _ _ carried

theorem bind (hp : Leaves t p post)
    (hf : ∀ first a t₁, post first a t₁ →
      Leaves t₁ (f a) fun second b t' => goal (first ++ second) b t') :
    Leaves t (p >>= f) goal := by
  intro moments b t' hrun
  obtain ⟨first, second, a, t₁, rfl, hfirst, hsecond⟩ := OverFiles.bind_iff.mp hrun
  exact hf first a t₁ (hp hfirst) hsecond

/-- All that a program leaves. -/
theorem self (t : Tree) (p : Program Files α) : Leaves t p (OverFiles t p) :=
  fun _ _ _ hrun => hrun

theorem mono (hp : Leaves t p post) (h : ∀ moments a t', post moments a t' → post' moments a t') :
    Leaves t p post' :=
  fun _ _ _ hrun => h _ _ _ (hp hrun)

end Leaves

/-! ### Answers -/

/-- The answer of a tree in memory is one of these. -/
theorem Tree.Carries.of_perform {t : Tree} {op : FileOp} {answer : op.Answer}
    (h : (t.perform op).1 = answer) : t.Carries ⟨op, answer⟩ (t.perform op).2 :=
  h ▸ .works op

/-- A change goes through, or the tree stays as it was. -/
theorem Tree.outcome_cases (t : Tree) (result : Except IoFault Tree) :
    ((t.outcome result).1 = .ok () ∧ result = .ok (t.outcome result).2) ∨
      ∃ fault, (t.outcome result).1 = .error fault ∧ (t.outcome result).2 = t := by
  cases result with
  | error fault => exact .inr ⟨fault, rfl, rfl⟩
  | ok made => exact .inl ⟨rfl, rfl⟩

namespace Tree.Carries

variable {t t' : Tree} {path source : Path}

theorem isPresent {answer : Bool} (h : t.Carries ⟨.isPresent path, answer⟩ t') :
    answer = t.isPresent path ∧ t' = t := by
  cases h with
  | works => exact ⟨rfl, rfl⟩

theorem of_readBytes {answer : Except IoFault ByteArray}
    (h : t.Carries ⟨.readBytes path, answer⟩ t') :
    t' = t ∧ ∀ content, answer = .ok content → t.readBytes path = .ok content := by
  cases h with
  | works => exact ⟨rfl, fun content hcontent => hcontent⟩
  | readBytes => exact ⟨rfl, nofun⟩

theorem of_mode {answer : Except IoFault Nat} (h : t.Carries ⟨.mode path, answer⟩ t') :
    t' = t ∧ ∀ mode, answer = .ok mode →
      ∃ h, t.holding? path.place = some h ∧ h.mode = mode := by
  cases h with
  | mode => exact ⟨rfl, nofun⟩
  | works =>
    refine ⟨rfl, fun mode hmode => ?_⟩
    change (t.find path).map (·.node.mode) = .ok mode at hmode
    cases hfind : t.find path with
    | error fault =>
      rw [hfind] at hmode
      cases hmode
    | ok found =>
      rw [hfind] at hmode
      cases hmode
      obtain ⟨hfrom, hplace, -⟩ := find_ok hfind
      exact ⟨found.node.holding, hplace ▸ holding?_of_from hfrom, found.node.mode_holding⟩

theorem of_createDirectories {answer : Except IoFault Unit}
    (h : t.Carries ⟨.createDirectories path, answer⟩ t') :
    t.Extends (path.ancestors.map Path.place) t' := by
  cases h with
  | works => exact createAlong_extends path.ancestors t
  | createDirectories _ fault part =>
    exact (createAlong_extends _ t).mono (List.map_subset _ part.subset)

theorem of_setMode {mode : Nat} {answer : Except IoFault Unit}
    (h : t.Carries ⟨.setMode path mode, answer⟩ t') :
    (∃ before, answer = .ok () ∧ t.holding? path.place = some before ∧
        t.Sets path.place (some (before.withMode mode)) t') ∨
      (∃ fault, answer = .error fault ∧ t' = t) := by
  cases h with
  | setMode _ _ fault => exact .inr ⟨fault, rfl, rfl⟩
  | works =>
    rcases t.outcome_cases (t.setMode path mode) with ⟨hdone, hset⟩ | hfailed
    · obtain ⟨before, hbefore, hsets⟩ := setMode_ok hset
      exact .inl ⟨before, hdone, hbefore, hsets⟩
    · exact .inr hfailed

/-- A copy that fails leaves its target anything but a directory. -/
theorem of_copy {answer : Except IoFault Unit} (h : t.Carries ⟨.copy source path, answer⟩ t') :
    (∃ content mode mode', answer = .ok () ∧ t.NoDirectory path.place ∧
        t.holding? source.place = some (.file content mode) ∧
        t.Sets path.place
          (some (.file (if path.place = source.place then .empty else content) mode')) t') ∨
      (∃ fault, answer = .error fault ∧ t.AgreesBut path.place t' ∧ t.SameDirectories t') := by
  cases h with
  | copy _ _ fault => exact .inr ⟨fault, rfl, .refl t _, .refl t⟩
  | torn _ _ fault target content left =>
    obtain ⟨rfl, hroom, hno⟩ := target_ok target
    have hsets := sets_put_file content left hroom hno
    have hagrees := hsets.agreesBut
    exact .inr ⟨fault, rfl, hagrees, hagrees.sameDirectories hno (.of_file hsets.self)⟩
  | works =>
    rcases t.outcome_cases (t.copy source path) with ⟨hdone, hcopy⟩ | ⟨fault, hfault, hsame⟩
    · obtain ⟨hno, content, mode, mode', hsource, hsets⟩ := copy_ok hcopy
      exact .inl ⟨content, mode, mode', hdone, hno, hsource, hsets⟩
    · have hsame : (t.perform (.copy source path)).2 = t := hsame
      rw [hsame]
      exact .inr ⟨fault, hfault, .refl t _, .refl t⟩

theorem of_rename {answer : Except IoFault Unit} (h : t.Carries ⟨.rename source path, answer⟩ t')
    (hne : source.place ≠ path.place) :
    (∃ content mode, answer = .ok () ∧ t.holding? source.place = some (.file content mode) ∧
        t.NoDirectory path.place ∧
        (∀ other, t'.holding? other =
          if other = path.place then some (.file content mode)
          else if other = source.place then none else t.holding? other) ∧
        t'.isPresent path = true) ∨
      (∃ fault, answer = .error fault ∧ t' = t) := by
  cases h with
  | rename _ _ fault => exact .inr ⟨fault, rfl, rfl⟩
  | works =>
    rcases t.outcome_cases (t.rename source path) with ⟨hdone, hrename⟩ | hfailed
    · obtain ⟨content, mode, hsource, hno, hmoved, hpresent⟩ := rename_ok hrename hne
      exact .inl ⟨content, mode, hdone, hsource, hno, hmoved, hpresent⟩
    · exact .inr hfailed

theorem of_remove {answer : Except IoFault Unit} (h : t.Carries ⟨.remove path, answer⟩ t') :
    (answer = .ok () ∧ t.NoDirectory path.place ∧ t.Sets path.place none t') ∨
      (∃ fault, answer = .error fault ∧ t' = t) := by
  cases h with
  | remove _ fault => exact .inr ⟨fault, rfl, rfl⟩
  | works =>
    rcases t.outcome_cases (t.remove path) with ⟨hdone, hremove⟩ | hfailed
    · exact .inl ⟨hdone, remove_ok hremove⟩
    · exact .inr hfailed

end Tree.Carries

end Overseer
