import Overseer.Proofs.Files.Faulty
import Overseer.Status.Summary

/-!
Writing files.

A write replaces the content of one file; one that fails may have left any content there, and
nothing else changes (`Tree.Carries.of_write`). Emptying a file and adding to one are alike
(`Tree.Carries.of_truncate`, `Tree.Carries.of_append`). A summary that is written stands in its
file, unless the files refused it (`StatusSummary.writeFile_leaves`).
-/

namespace Overseer

namespace Tree

variable {t t' : Tree} {path : Path} {content : ByteArray}

theorem write_ok (h : t.write path content = .ok t') :
    t'.isPresent path = true ∧ ∃ mode, t.Sets path.place (some (.file content mode)) t' := by
  unfold write at h
  obtain ⟨⟨place, mode⟩, htarget, h⟩ := Except.bind_eq_ok h
  cases h
  obtain ⟨hpresent, hsets⟩ := put_target htarget content mode
  exact ⟨hpresent, mode, hsets⟩

theorem truncate_ok (h : t.truncate path = .ok t') :
    t'.isPresent path = true ∧ ∃ mode, t.Sets path.place (some (.file .empty mode)) t' := by
  unfold truncate at h
  obtain ⟨⟨place, mode⟩, htarget, h⟩ := Except.bind_eq_ok h
  dsimp only at h
  split at h
  · cases h
    obtain ⟨hpresent, hsets⟩ := put_target htarget .empty mode
    exact ⟨hpresent, mode, hsets⟩
  · cases h

theorem append_ok {more : ByteArray} (h : t.append path more = .ok t') :
    t'.isPresent path = true ∧ ∃ content bits mode,
      t.holding? path.place = some (.file content bits) ∧
        t.Sets path.place (some (.file (content ++ more) mode)) t' := by
  unfold append at h
  obtain ⟨⟨place, mode⟩, htarget, h⟩ := Except.bind_eq_ok h
  dsimp only at h
  split at h
  · rename_i content bits hnode
    cases h
    obtain ⟨hpresent, hsets⟩ := put_target htarget (content ++ more) mode
    obtain ⟨rfl, -⟩ := target_ok htarget
    refine ⟨hpresent, content, bits, mode, ?_, hsets⟩
    rw [holding?, hnode]
    rfl
  · cases h

namespace Carries

/-- A write that fails may leave any content at its target. -/
theorem of_write {answer : Except IoFault Unit} (h : t.Carries ⟨.write path content, answer⟩ t') :
    (answer = .ok () ∧ t'.isPresent path = true ∧
        ∃ mode, t.Sets path.place (some (.file content mode)) t') ∨
      (∃ fault, answer = .error fault ∧ t.AgreesBut path.place t') := by
  cases h with
  | write _ _ fault => exact .inr ⟨fault, rfl, .refl t _⟩
  | tornWrite _ _ fault target left =>
    exact .inr ⟨fault, rfl, (put_target target left _).2.agreesBut⟩
  | works =>
    rcases t.outcome_cases (t.write path content) with ⟨hdone, hwrite⟩ | ⟨fault, hfault, hsame⟩
    · exact .inl ⟨hdone, write_ok hwrite⟩
    · have hsame : (t.perform (.write path content)).2 = t := hsame
      rw [hsame]
      exact .inr ⟨fault, hfault, .refl t _⟩

theorem of_truncate {answer : Except IoFault Unit} (h : t.Carries ⟨.truncate path, answer⟩ t') :
    (answer = .ok () ∧ t'.isPresent path = true ∧
        ∃ mode, t.Sets path.place (some (.file .empty mode)) t') ∨
      (∃ fault, answer = .error fault ∧ t' = t) := by
  cases h with
  | works =>
    rcases t.outcome_cases (t.truncate path) with ⟨hdone, htruncate⟩ | hfailed
    · exact .inl ⟨hdone, truncate_ok htruncate⟩
    · exact .inr hfailed

theorem of_append {more : ByteArray} {answer : Except IoFault Unit}
    (h : t.Carries ⟨.append path more, answer⟩ t') :
    (answer = .ok () ∧ t'.isPresent path = true ∧ ∃ content bits mode,
        t.holding? path.place = some (.file content bits) ∧
          t.Sets path.place (some (.file (content ++ more) mode)) t') ∨
      (∃ fault, answer = .error fault ∧ t' = t) := by
  cases h with
  | works =>
    rcases t.outcome_cases (t.append path more) with ⟨hdone, happend⟩ | hfailed
    · exact .inl ⟨hdone, append_ok happend⟩
    · exact .inr hfailed

end Carries

end Tree

/-! ### The status file -/

namespace StatusSummary

variable {path parent : Path} {s : StatusSummary} {t t₁ t₂ : Tree} {moments : List Moment}

/-- Writes a summary where its directory was made. -/
def fill (path : Path) (s : StatusSummary) : Except IoFault Unit → Program Files Unit
  | .error _ => return ()
  | .ok () => do
    let _ ← Files.write path s.text.toUTF8
    return ()

theorem writeFile_of_parent (s : StatusSummary) (above : path.parent? = some parent) :
    s.writeFile path = Files.createDirectories parent >>= s.fill path := by
  unfold writeFile
  rw [above]
  rfl

theorem writeFile_of_no_parent (s : StatusSummary) (top : path.parent? = none) :
    s.writeFile path = s.fill path (.ok ()) := by
  unfold writeFile
  rw [top]
  rfl

/-- A directory could not be made, or the file at the path could not be written. -/
def Refused (path : Path) (moments : List Moment) : Prop :=
  ∃ fault after, (∃ parent, ⟨⟨.createDirectories parent, .error fault⟩, after⟩ ∈ moments) ∨
    ∃ content, ⟨⟨.write path content, .error fault⟩, after⟩ ∈ moments

theorem Refused.cons (h : Refused path moments) (m : Moment) : Refused path (m :: moments) := by
  obtain ⟨fault, after, ⟨parent, hmem⟩ | ⟨content, hmem⟩⟩ := h
  · exact ⟨fault, after, .inl ⟨parent, List.mem_cons_of_mem m hmem⟩⟩
  · exact ⟨fault, after, .inr ⟨content, List.mem_cons_of_mem m hmem⟩⟩

/-- How a write of the summary ends: its text stands in the file, unless the files refused. -/
def Lands (path : Path) (s : StatusSummary) (moments : List Moment) (t : Tree) : Prop :=
  Refused path moments ∨ ∃ mode, t.holding? path.place = some (.file s.text.toUTF8 mode)

theorem fill_leaves (path : Path) (s : StatusSummary) (t : Tree) :
    Leaves t (s.fill path (.ok ())) fun moments _ t' => s.Lands path moments t' := by
  apply Leaves.question
  intro answer t₁ hcarried
  apply Leaves.done
  rcases hcarried.of_write with ⟨-, -, mode, hsets⟩ | ⟨fault, rfl, -⟩
  · exact .inr ⟨mode, hsets.self⟩
  · exact .inl ⟨fault, t₁, .inr ⟨_, List.mem_cons_self⟩⟩

theorem writeFile_leaves (path : Path) (s : StatusSummary) (t : Tree) :
    Leaves t (s.writeFile path) fun moments _ t' => s.Lands path moments t' := by
  cases habove : path.parent? with
  | none =>
    rw [s.writeFile_of_no_parent habove]
    exact s.fill_leaves path t
  | some parent =>
    rw [s.writeFile_of_parent habove]
    apply Leaves.question
    intro made t₁ _
    cases made with
    | error fault =>
      apply Leaves.done
      exact .inl ⟨fault, t₁, .inl ⟨parent, List.mem_cons_self⟩⟩
    | ok u =>
      refine (s.fill_leaves path t₁).mono ?_
      intro moments _ t' hlands
      exact hlands.imp_left fun hrefused => hrefused.cons _

/-- A tree in memory that makes the directory and writes the file refuses nothing. -/
theorem exists_writeFile_run (above : path.parent? = some parent)
    (made : (t.perform (.createDirectories parent)).1 = .ok ())
    (written : ((t.perform (.createDirectories parent)).2.perform
      (.write path s.text.toUTF8)).1 = .ok ()) :
    ∃ moments, OverFiles t (s.writeFile path) moments () (t.run (s.writeFile path)).2 ∧
      ¬Refused path moments := by
  have hrun : (t.run (s.writeFile path)).2 =
      ((t.perform (.createDirectories parent)).2.perform (.write path s.text.toUTF8)).2 := by
    rw [s.writeFile_of_parent above, Tree.run_bind]
    change (Tree.run (s.fill path (t.perform (.createDirectories parent)).1) _).2 = _
    rw [made]
    rfl
  rw [hrun, s.writeFile_of_parent above]
  refine ⟨_, .ask (.of_perform made) (.ask (.of_perform written) (.done _ ())), ?_⟩
  rintro ⟨fault, after, ⟨parent, hmem⟩ | ⟨content, hmem⟩⟩ <;>
    rcases List.mem_cons.mp hmem with heq | hmem
  · cases heq
  · cases List.mem_singleton.mp hmem
  · cases heq
  · cases List.mem_singleton.mp hmem

end StatusSummary

end Overseer
