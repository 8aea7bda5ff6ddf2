import Overseer.Config.Load
import Overseer.Proofs.Files.Places

/-!
Plain names.

A name is plain exactly if it is relative and spells one name that leads down: the name comes first,
and after it stand nothing but slashes and dots (`Path.isPlainName_iff`). Joined to any path, it is
one more component (`Path.Spells.components_join`) and names a place right below
(`Path.Spells.place_join`). The names in a configuration that was accepted are all plain, so none of
them leads out of the directory it is joined to (`Config.names_stay_below`).
-/

namespace Overseer

namespace Path

/-! ### Spelling one name -/

/-- A text spells a name that leads down: the name comes first, and nothing after it leads on. -/
structure Spells (text name : String) : Prop where
  leadsDown : Text.LeadsDown name
  spelled : ∃ after, text = "/".intercalate (name :: after) ∧
    ∀ segment ∈ after, segment = "" ∨ segment = "."

theorem spells_iff_segments {text name : String} :
    Spells text name ↔ Text.LeadsDown name ∧ ∃ after, segments text = name :: after ∧
      ∀ segment ∈ after, segment = "" ∨ segment = "." := by
  constructor
  · rintro ⟨hname, after, rfl, hafter⟩
    refine ⟨hname, after, segments_intercalate ?_, hafter⟩
    intro segment hsegment
    rcases List.mem_cons.mp hsegment with rfl | hsegment
    · exact hname.not_slash
    · rcases hafter segment hsegment with rfl | rfl <;> decide
  · rintro ⟨hname, after, hsegments, hafter⟩
    refine ⟨hname, after, ?_, hafter⟩
    rw [← hsegments, intercalate_segments]

theorem Spells.isAbsolute {text name : String} (h : Spells text name) :
    isAbsolute ⟨text⟩ = false := by
  obtain ⟨hname, after, hsegments, -⟩ := spells_iff_segments.mp h
  exact isAbsolute_eq_false_of_segments hsegments hname.ne_empty

theorem Spells.components {text name : String} (h : Spells text name) :
    components ⟨text⟩ = [.normal name] := by
  have hrelative := h.isAbsolute
  obtain ⟨hname, after, hsegments, hafter⟩ := spells_iff_segments.mp h
  have hstays := filterMap_componentOf_of_stays hafter
  simp [Path.components, hsegments, hrelative, hname.ne_dot, componentOf_of_leadsDown hname, hstays]

theorem Spells.fileName {text name : String} (h : Spells text name) :
    fileName? ⟨text⟩ = some name := by
  simp [fileName?, h.components]

/-- A text that is one ordinary component begins with it: whatever stood before would be another. -/
theorem spells_of_components {text name : String} (h : components ⟨text⟩ = [.normal name]) :
    Spells text name := by
  have hlast : fileName? ⟨text⟩ = some name := by simp [fileName?, h]
  obtain ⟨before, after, hsegments, hname, hafter⟩ := exists_segments_of_fileName hlast
  apply spells_iff_segments.mpr
  refine ⟨hname, after, ?_, hafter⟩
  cases before with
  | nil => exact hsegments
  | cons first before =>
    obtain ⟨second, rest, hmore⟩ : ∃ second rest, before ++ name :: after = second :: rest :=
      List.exists_cons_of_ne_nil (by simp)
    rw [List.cons_append, hmore] at hsegments
    obtain ⟨component, hfirst⟩ := exists_components_of_segments hsegments
    rw [← hmore, List.filterMap_append,
      List.filterMap_cons_some (componentOf_of_leadsDown hname)] at hfirst
    simpa using congrArg List.length (h.symm.trans hfirst)

/-- A name is plain exactly if it is relative and spells one name that leads down. -/
theorem isPlainName_iff {text : String} :
    isPlainName text = true ↔ isAbsolute ⟨text⟩ = false ∧ ∃ name, Spells text name := by
  constructor
  · intro h
    unfold isPlainName at h
    split at h
    · rename_i name hcomponents
      have hspells := spells_of_components hcomponents
      exact ⟨hspells.isAbsolute, name, hspells⟩
    · cases h
  · rintro ⟨-, name, hspells⟩
    simp [isPlainName, hspells.components]

/-- What is joined to a path goes on with the segments of its text, from a place where nothing but
an empty segment is left out. -/
theorem Spells.segments_join {text name : String} (h : Spells text name) (base : Path) :
    ∃ above after, segments (base.join text).text = above ++ name :: after ∧
      (segments base.text = above ++ [""] ∨ segments base.text = above) ∧
      ∀ segment ∈ after, segment = "" ∨ segment = "." := by
  have hrelative := h.isAbsolute
  obtain ⟨hname, after, hsegments, hafter⟩ := spells_iff_segments.mp h
  rcases segments_join_of_relative base hrelative with ⟨above, hbase, hjoined⟩ | hjoined
  · exact ⟨above, after, by rw [hjoined, hsegments], .inl hbase, hafter⟩
  · exact ⟨segments base.text, after, by rw [hjoined, hsegments], .inr rfl, hafter⟩

/-- A plain name is joined to a path as one more component. -/
theorem Spells.components_join {text name : String} (h : Spells text name) (base : Path) :
    (base.join text).components = base.components ++ [.normal name] := by
  have habsolute := isAbsolute_join_of_relative base h.isAbsolute
  have hcomponent := componentOf_of_leadsDown h.leadsDown
  obtain ⟨above, after, hjoined, hbase, hafter⟩ := h.segments_join base
  have hstays := filterMap_componentOf_of_stays hafter
  have hempty : componentOf "" = none := componentOf_of_stays (.inl rfl)
  unfold Path.components
  rw [hjoined, habsolute]
  cases above with
  | nil =>
    have hbase : segments base.text = [""] := by
      rcases hbase with hbase | hbase
      · exact hbase
      · exact absurd hbase (segments_ne_nil base.text)
    have hrelative : base.isAbsolute = false := by
      rw [← habsolute]
      exact isAbsolute_eq_false_of_segments hjoined h.leadsDown.ne_empty
    rw [hbase]
    simp [hrelative, h.leadsDown.ne_dot, hcomponent, hstays, hempty]
  | cons first above =>
    rcases hbase with hbase | hbase
    · rw [hbase]
      simp [List.filterMap_append, hcomponent, hstays, hempty]
    · rw [hbase]
      simp [List.filterMap_append, hcomponent, hstays]

/-- It is joined as the last name, and names a place right below. -/
theorem Spells.place_join {text name : String} (h : Spells text name) (base : Path) :
    (base.join text).place = base.place ++ [name] := by
  obtain ⟨above, after, hjoined, hbase, hafter⟩ := h.segments_join base
  have habove : above.foldl Place.step [] = base.place := by
    rcases hbase with hbase | hbase
    · rw [place, hbase, List.foldl_append]
      rfl
    · rw [place, hbase]
  rw [place, hjoined, List.foldl_append, List.foldl_cons, Place.foldl_step_of_stays hafter, habove]
  exact Place.step_of_leadsDown h.leadsDown

theorem Spells.fileName_join {text name : String} (h : Spells text name) (base : Path) :
    (base.join text).fileName? = some name := by
  simp [fileName?, h.components_join base]

/-- A plain name is joined to a path as its last name, wherever dots and slashes stand in it. -/
theorem join_of_isPlainName (base : Path) {text : String} (h : isPlainName text = true) :
    ∃ name, fileName? ⟨text⟩ = some name ∧ (base.join text).fileName? = some name ∧
      (base.join text).place = base.place ++ [name] := by
  obtain ⟨-, name, hspells⟩ := isPlainName_iff.mp h
  exact ⟨name, hspells.fileName, hspells.fileName_join base, hspells.place_join base⟩

end Path

theorem Except.eq_ok_of_mem_toOption {ε α : Type} {x : Except ε α} {a : α}
    (h : a ∈ x.toOption) : x = .ok a := by
  cases x with
  | error e => cases h
  | ok b =>
    cases h
    rfl

namespace Config

/-! ### The names of a configuration -/

/-- A name that is joined to the working or the asset directory. -/
inductive Joins (c : Config) : String → Prop where
  | binary : c.Joins c.worker.binaryName
  | authFile : c.Joins c.worker.authFileName
  | auxName {aux : AuxFile} (h : aux ∈ c.worker.auxFiles) : c.Joins aux.name
  | auxTarget {aux : AuxFile} (h : aux ∈ c.worker.auxFiles) : c.Joins aux.targetName

theorem joins_iff {c : Config} {name : String} :
    c.Joins name ↔ ∃ n ∈ c.fileNames, n.name = name := by
  simp only [fileNames, List.mem_cons, List.mem_flatMap, List.not_mem_nil, or_false]
  constructor
  · intro h
    cases h with
    | binary => exact ⟨_, .inl rfl, rfl⟩
    | authFile => exact ⟨_, .inr (.inl rfl), rfl⟩
    | auxName haux => exact ⟨_, .inr (.inr ⟨_, haux, .inl rfl⟩), rfl⟩
    | auxTarget haux => exact ⟨_, .inr (.inr ⟨_, haux, .inr rfl⟩), rfl⟩
  · rintro ⟨n, rfl | rfl | ⟨aux, haux, rfl | rfl⟩, rfl⟩
    · exact .binary
    · exact .authFile
    · exact .auxName haux
    · exact .auxTarget haux

theorem badName?_eq_none_iff {c : Config} :
    c.badName? = none ↔ ∀ name, c.Joins name → Path.isPlainName name = true := by
  simp [badName?, List.find?_eq_none, joins_iff]

/-- A configuration that was accepted has no bad name, also one of defaults alone. -/
theorem badName?_of_ofReading {reading : Except IoFault String} {c : Config}
    (accepted : ofReading reading = .ok c) : c.badName? = none := by
  unfold ofReading at accepted
  split at accepted
  · exact (ofText_eq_ok_iff.mp accepted).2
  · cases accepted
    decide +kernel
  · cases accepted

/-- Every name of a configuration that was accepted is joined to any directory as one component
more, right below it. The check accepts a configuration exactly if it accepts all these names, and a
name exactly if it is relative, begins with an ordinary component and goes on with nothing but empty
segments and dots. -/
theorem names_stay_below :
    (∀ (reading : Except IoFault String) (c : Config), ofReading reading = .ok c →
      ∀ text, c.Joins text → ∃ name, Path.Spells text name ∧ ∀ base : Path,
        (base.join text).components = base.components ++ [.normal name] ∧
          (base.join text).place = base.place ++ [name]) ∧
    (∀ c : Config, c.badName? = none ↔ ∀ text, c.Joins text → Path.isPlainName text = true) ∧
    ∀ text, Path.isPlainName text = true ↔
      Path.isAbsolute ⟨text⟩ = false ∧ ∃ name, Path.Spells text name := by
  constructor
  · intro reading c accepted text joins
    have hplain := badName?_eq_none_iff.mp (badName?_of_ofReading accepted) text joins
    obtain ⟨-, name, hspells⟩ := Path.isPlainName_iff.mp hplain
    exact ⟨name, hspells, fun base => ⟨hspells.components_join base, hspells.place_join base⟩⟩
  · exact ⟨fun c => badName?_eq_none_iff, fun text => Path.isPlainName_iff⟩

/-- The name of a binary may end in a slash and a dot. -/
theorem names_stay_below_slash :
    ∃ c, ofReading (.ok "[worker]\nbinary_name = \"w/.\"") = .ok c ∧ c.worker.binaryName = "w/." ∧
      ∃ name, Path.Spells "w/." name ∧ ∀ base : Path,
        (base.join "w/.").components = base.components ++ [.normal name] ∧
          (base.join "w/.").place = base.place ++ [name] := by
  have hloads : ∃ c ∈ (ofText "[worker]\nbinary_name = \"w/.\"").toOption,
      c.worker.binaryName = "w/." := by decide +kernel
  obtain ⟨c, hc, hname⟩ := hloads
  have accepted : ofReading (.ok "[worker]\nbinary_name = \"w/.\"") = .ok c :=
    Except.eq_ok_of_mem_toOption hc
  have joins : c.Joins "w/." := by
    rw [← hname]
    exact .binary
  exact ⟨c, accepted, hname, names_stay_below.1 _ c accepted "w/." joins⟩

end Config

end Overseer
