import Overseer.Proofs.Files.Faulty

/-!
Opening a file in a directory that is made first.

The directories above a file that is present are all there, so making them changes nothing
(`Tree.Carries.same_of_present`). Opening a file for an update leaves it as it is, or makes it empty
where nothing was (`Tree.Carries.of_openForUpdate`); once it is present, opening it changes nothing
either.
-/

namespace Overseer

/-! ### The names of a path -/

namespace Path

/-- The names that a path leads through. -/
def names (p : Path) : List String := (segments p.text).filter (· ≠ "")

theorem place_eq_names (p : Path) : p.place = p.names.foldl Place.step [] :=
  (Place.foldl_step_filter _ _).symm

/-- A name that leads down is one more name of the path that it is joined to. -/
theorem names_join (base : Path) {name : String} (h : Text.LeadsDown name) :
    (base.join name).names = base.names ++ [name] := by
  have hname : [name].filter (· ≠ "") = [name] := by simp [h.ne_empty]
  unfold names
  rcases base.segments_join h with ⟨above, hbase, hjoined⟩ | hjoined
  · rw [hjoined, hbase, List.filter_append, List.filter_append, hname]
    simp
  · rw [hjoined, List.filter_append, hname]

/-! ### The paths above a path -/

theorem trimSegments_isPrefix (segments : List String) : trimSegments segments <+: segments := by
  rw [← List.reverse_suffix, trimSegments, List.reverse_reverse]
  exact List.dropWhile_suffix _

/-- What trimming takes off the end stays where it is. -/
theorem foldl_step_trimSegments (segments : List String) (place : Place) :
    (trimSegments segments).foldl Place.step place = segments.foldl Place.step place := by
  induction segments using List.reverseRecOn with
  | nil => rfl
  | append_singleton segments last ih =>
    unfold trimSegments at ih ⊢
    rw [List.reverse_append, List.reverse_singleton, List.singleton_append]
    by_cases hlast : last = "" ∨ last = "."
    · rw [List.dropWhile_cons_of_pos (by simpa using hlast), List.foldl_append, ih]
      exact (Place.step_of_stays hlast).symm
    · rw [List.dropWhile_cons_of_neg (by simpa using hlast)]
      simp

/-- A path above names the place of a beginning of the segments. -/
theorem place_of_mem_pathsAbove {first : String} {reversed : List String} {q : Path}
    (hslash : ∀ segment ∈ first :: reversed, '/' ∉ segment.toList)
    (h : q ∈ pathsAbove first reversed) :
    ∃ kept, kept <+: reversed.reverse ∧ q.place = (first :: kept).foldl Place.step [] := by
  induction reversed with
  | nil => cases h
  | cons segment rest ih =>
    have hrest : ∀ segment ∈ first :: rest, '/' ∉ segment.toList := by
      simp only [List.mem_cons, forall_eq_or_imp] at hslash ⊢
      exact ⟨hslash.1, hslash.2.2⟩
    have hshorter : rest.reverse <+: (segment :: rest).reverse := by simp
    have habove (hmem : q ∈ pathsAbove first rest) :
        ∃ kept, kept <+: (segment :: rest).reverse ∧
          q.place = (first :: kept).foldl Place.step [] := by
      obtain ⟨kept, hkept, hplace⟩ := ih hrest hmem
      exact ⟨kept, hkept.trans hshorter, hplace⟩
    unfold pathsAbove at h
    by_cases hstays : segment = "" ∨ segment = "."
    · rw [if_pos hstays] at h
      exact habove h
    · rw [if_neg hstays] at h
      rcases List.mem_cons.mp h with rfl | hmem
      · refine ⟨rest.reverse, hshorter, ?_⟩
        have htrimmed := foldl_step_trimSegments rest.reverse (Place.step [] first)
        rw [List.foldl_cons, ← htrimmed]
        by_cases htop : first = "" ∧ trimSegments rest.reverse = []
        · rw [if_pos htop, htop.1, htop.2]
          rfl
        · rw [if_neg htop, place, segments_intercalate]
          · rfl
          · intro segment hsegment
            rcases List.mem_cons.mp hsegment with rfl | hsegment
            · exact hrest segment List.mem_cons_self
            · have hmem : segment ∈ rest.reverse :=
                (trimSegments_isPrefix _).subset hsegment
              exact hrest segment (List.mem_cons_of_mem _ (List.mem_reverse.mp hmem))
      · exact habove hmem

/-- A path, or one above it, names the place of a beginning of its names. -/
theorem place_of_mem_ancestors {p q : Path} (h : q ∈ p.ancestors) :
    ∃ kept, kept <+: p.names ∧ q.place = kept.foldl Place.step [] := by
  have hslash : ∀ segment ∈ segments p.text, '/' ∉ segment.toList :=
    fun segment hsegment => not_slash_of_mem_segments hsegment
  unfold ancestors at h
  cases hsegments : segments p.text with
  | nil =>
    rw [hsegments] at h
    cases h
  | cons first rest =>
    rw [hsegments] at h hslash
    dsimp only at h
    split at h
    · cases h
    · rcases List.mem_cons.mp h with rfl | habove
      · exact ⟨q.names, List.prefix_rfl, q.place_eq_names⟩
      · obtain ⟨kept, hkept, hplace⟩ := place_of_mem_pathsAbove (by simpa using hslash) habove
        rw [List.reverse_reverse] at hkept
        refine ⟨(first :: kept).filter (· ≠ ""), ?_, ?_⟩
        · rw [names, hsegments]
          exact (List.cons_prefix_cons.mpr ⟨rfl, hkept⟩).filter _
        · rw [hplace, Place.foldl_step_filter]

end Path

theorem Route.ofPath_through {path : Path} {route : Route} (h : Route.ofPath path = .ok route) :
    route.through = path.names.dropLast := by
  unfold Route.ofPath at h
  split at h
  · cases h
  · split at h
    · cases h
    · split at h
      · cases h
      · cases h
        rfl

/-! ### Making the directories above -/

namespace Tree

variable {t t' : Tree} {path : Path}

/-- Names that lead through directories lead to one at every step. -/
theorem Passes.isOpen {place : Place} {kept names : List String} (h : t.Passes place names)
    (hkept : kept <+: names) : t.IsOpen (kept.foldl Place.step place) := by
  induction kept generalizing place names with
  | nil =>
    cases names with
    | nil => exact h
    | cons name rest => exact h.1
  | cons name kept ih =>
    obtain ⟨rest, rfl⟩ := hkept
    exact ih h.2.2 (List.prefix_append kept rest)

/-- All directories above a file that is present can be gone through. -/
theorem passes_of_isPresent {dir : Path} {name : String} (hname : Text.LeadsDown name)
    (h : t.isPresent (dir.join name) = true) : t.Passes [] dir.names := by
  obtain ⟨found, hfound⟩ := isPresent_iff.mp h
  obtain ⟨-, -, route, hroute, hpasses, -⟩ := find_ok hfound
  have hthrough : route.through = (dir.join name).names.dropLast := Route.ofPath_through hroute
  rw [hthrough, Path.names_join dir hname, List.dropLast_concat] at hpasses
  exact hpasses

namespace Carries

/-- Making the directories above a file that is present changes nothing. -/
theorem same_of_present {dir : Path} {name : String} {answer : Except IoFault Unit}
    (h : t.Carries ⟨.createDirectories dir, answer⟩ t') (hname : Text.LeadsDown name)
    (hpresent : t.isPresent (dir.join name) = true) (place : Place) :
    t'.holding? place = t.holding? place := by
  rcases h.of_createDirectories place with hsame | ⟨hmem, hnone, -⟩
  · exact hsame
  · obtain ⟨q, hq, rfl⟩ := List.mem_map.mp hmem
    obtain ⟨kept, hkept, hplace⟩ := Path.place_of_mem_ancestors hq
    obtain ⟨mode, hmode, -⟩ := (passes_of_isPresent hname hpresent).isOpen hkept
    rw [hplace, hmode] at hnone
    cases hnone

end Carries

/-! ### Opening -/

/-- A file that is opened for an update was there, or is empty. -/
theorem openForUpdate_ok (h : t.openForUpdate path = .ok t') :
    t'.isPresent path = true ∧
      ((t' = t ∧ ∃ content mode, t.holding? path.place = some (.file content mode)) ∨
        (t.holding? path.place = none ∧
          ∃ mode, t.Sets path.place (some (.file .empty mode)) t')) := by
  unfold openForUpdate at h
  obtain ⟨⟨place, mode⟩, htarget, h⟩ := Except.bind_eq_ok h
  obtain ⟨rfl, -, hno⟩ := target_ok htarget
  dsimp only at h
  cases hnode : t.get? path.place with
  | none =>
    rw [hnode] at h
    cases h
    obtain ⟨hpresent, hsets⟩ := put_target htarget .empty mode
    exact ⟨hpresent, .inr ⟨holding?_eq_none.mpr hnode, mode, hsets⟩⟩
  | some node =>
    rw [hnode] at h
    cases h
    have hholding : t.holding? path.place = some node.holding := by simp [holding?, hnode]
    have hpresent := target_isPresent htarget (SameDirectories.refl t).keeps hholding
    cases node with
    | directory mode es => exact absurd hholding (hno mode)
    | file content mode => exact ⟨hpresent, .inl ⟨rfl, content, mode, hholding⟩⟩

namespace Carries

theorem of_openForUpdate {answer : Except IoFault Unit}
    (h : t.Carries ⟨.openForUpdate path, answer⟩ t') :
    (answer = .ok () ∧ t'.isPresent path = true ∧
      ((t' = t ∧ ∃ content mode, t.holding? path.place = some (.file content mode)) ∨
        (t.holding? path.place = none ∧
          ∃ mode, t.Sets path.place (some (.file .empty mode)) t'))) ∨
      (∃ fault, answer = .error fault ∧ t' = t) := by
  cases h with
  | works =>
    rcases t.outcome_cases (t.openForUpdate path) with ⟨hdone, hopen⟩ | hfailed
    · exact .inl ⟨hdone, openForUpdate_ok hopen⟩
    · exact .inr hfailed

end Carries

end Tree

end Overseer
