import Mathlib.Data.List.Induction
import Overseer.Files.Lookup
import Overseer.Installer

/-!
The places that paths name.

Where nothing but directories is on the way, a path names a place by its text alone
(`Path.place`): dots stay, two dots lead back, and every other segment leads down. A name joined to
a path is named below it (`Path.place_join`), and the temporary sibling of a file is never the file
itself (`Installer.partialPath_place_ne`).
-/

namespace Overseer

/-! ### Segments -/

/-- One step along a path. -/
def Place.step (place : Place) (name : String) : Place :=
  if name = "" ∨ name = "." then place
  else if name = ".." then place.dropLast
  else place ++ [name]

/-- A segment that leads down. -/
structure Text.LeadsDown (name : String) : Prop where
  ne_empty : name ≠ ""
  ne_dot : name ≠ "."
  ne_dots : name ≠ ".."
  not_slash : '/' ∉ name.toList

theorem Place.step_of_leadsDown {place : Place} {name : String} (h : Text.LeadsDown name) :
    place.step name = place ++ [name] := by
  unfold step
  rw [if_neg (not_or.mpr ⟨h.ne_empty, h.ne_dot⟩), if_neg h.ne_dots]

theorem Place.step_of_stays {place : Place} {name : String} (h : name = "" ∨ name = ".") :
    place.step name = place :=
  if_pos h

theorem Place.foldl_step_of_stays {names : List String} {place : Place}
    (h : ∀ name ∈ names, name = "" ∨ name = ".") : names.foldl step place = place := by
  induction names with
  | nil => rfl
  | cons name rest ih =>
    obtain ⟨hname, hrest⟩ := List.forall_mem_cons.mp h
    rw [List.foldl_cons, step_of_stays hname]
    exact ih hrest

namespace Path

/-- The place that a path names. -/
def place (p : Path) : Place := (segments p.text).foldl Place.step []

theorem segments_append_slash (first second : String) :
    segments (first ++ "/" ++ second) = segments first ++ segments second := by
  have hpieces : Text.pieces (· == '/') (first.toList ++ '/' :: second.toList) = _ :=
    Text.pieces_append_separator rfl first.toList second.toList
  simp [segments, hpieces]

theorem segments_of_not_slash {name : String} (h : '/' ∉ name.toList) : segments name = [name] := by
  have hpieces : Text.pieces (· == '/') name.toList = [name.toList] :=
    Text.pieces_eq_singleton fun c hc => by
      have hne : c ≠ '/' := fun heq => h (heq ▸ hc)
      simpa using hne
  simp [segments, hpieces]

theorem not_slash_of_mem_segments {text name : String} (h : name ∈ segments text) :
    '/' ∉ name.toList := by
  obtain ⟨piece, hpiece, rfl⟩ := List.mem_map.mp h
  intro hslash
  rw [String.toList_ofList] at hslash
  have hseparator := Text.not_separator_of_mem_pieces hpiece hslash
  cases hseparator

theorem segments_ne_nil (text : String) : segments text ≠ [] := by
  simp [segments, Text.pieces_ne_nil]

theorem intercalate_segments (text : String) : "/".intercalate (segments text) = text :=
  Text.intercalate_map_pieces rfl text

theorem segments_intercalate {first : String} {rest : List String}
    (h : ∀ segment ∈ first :: rest, '/' ∉ segment.toList) :
    segments ("/".intercalate (first :: rest)) = first :: rest :=
  Text.map_pieces_intercalate rfl (List.cons_ne_nil first rest) h

/-- A path starts at the root if its first segment is empty and not its only one. -/
theorem isAbsolute_iff_segments {p : Path} :
    p.isAbsolute = true ↔ ∃ second rest, segments p.text = "" :: second :: rest := by
  constructor
  · intro h
    cases hlist : p.text.toList with
    | nil => simp [isAbsolute, hlist] at h
    | cons c below =>
      have hc : c = '/' := by simpa [isAbsolute, hlist] using h
      cases hpieces : Text.pieces (· == '/') below with
      | nil => exact absurd hpieces (Text.pieces_ne_nil _ below)
      | cons second rest =>
        exact ⟨String.ofList second, rest.map String.ofList, by
          simp [segments, hlist, hc, Text.pieces, hpieces]⟩
  · rintro ⟨second, rest, h⟩
    cases hlist : p.text.toList with
    | nil => simp [segments, hlist, Text.pieces] at h
    | cons c below =>
      by_cases hc : c = '/'
      · simp [isAbsolute, hlist, hc]
      · have hne : (c == '/') = false := by simpa using hc
        simp only [segments, hlist, Text.pieces, hne, Bool.false_eq_true, if_false] at h
        cases hpieces : Text.pieces (· == '/') below with
        | nil => exact absurd hpieces (Text.pieces_ne_nil _ below)
        | cons piece more => simp [hpieces, ← String.toList_inj] at h

theorem isAbsolute_eq_false_of_segments {p : Path} {first : String} {rest : List String}
    (h : segments p.text = first :: rest) (hne : first ≠ "") : p.isAbsolute = false := by
  apply Bool.eq_false_iff.mpr
  intro habsolute
  obtain ⟨second, more, hsegments⟩ := isAbsolute_iff_segments.mp habsolute
  exact hne (List.cons.inj (h.symm.trans hsegments)).1

/-- What is joined to a path goes on with its segments, in the place of an empty last one. -/
theorem segments_join_of_relative (base : Path) {name : String} (h : isAbsolute ⟨name⟩ = false) :
    (∃ above, segments base.text = above ++ [""] ∧
        segments (base.join name).text = above ++ segments name) ∨
      segments (base.join name).text = segments base.text ++ segments name := by
  unfold join
  rw [if_neg (by rw [h]; exact Bool.false_ne_true)]
  cases hlast : base.text.toList.getLast? with
  | none =>
    have htext : base.text = "" := by
      rw [List.getLast?_eq_none_iff] at hlast
      simpa using hlast
    exact .inl ⟨[], by rw [htext]; rfl, rfl⟩
  | some last =>
    by_cases hslash : last = '/'
    · subst hslash
      obtain ⟨start, hstart⟩ := List.getLast?_eq_some_iff.mp hlast
      have htext : base.text = String.ofList start ++ "/" ++ "" := by
        apply String.toList_inj.mp
        simp [hstart]
      have hjoined : base.text ++ name = String.ofList start ++ "/" ++ name := by
        rw [htext, String.append_empty]
      refine .inl ⟨segments (String.ofList start), ?_, ?_⟩
      · rw [htext, segments_append_slash]
        rfl
      · simp only [if_pos, hjoined]
        rw [segments_append_slash]
    · simp only [if_neg hslash]
      rw [segments_append_slash]
      exact .inr rfl

theorem isAbsolute_join_of_relative (base : Path) {name : String}
    (h : isAbsolute ⟨name⟩ = false) : (base.join name).isAbsolute = base.isAbsolute := by
  unfold join
  rw [if_neg (by rw [h]; exact Bool.false_ne_true)]
  cases hlist : base.text.toList with
  | nil => simpa [isAbsolute, hlist] using h
  | cons c rest =>
    obtain ⟨last, hlast⟩ : ∃ last, (c :: rest).getLast? = some last := 
      ⟨_, List.getLast?_eq_some_getLast (List.cons_ne_nil c rest)⟩
    rw [hlast]
    by_cases hslash : last = '/'
    · simp [hslash, isAbsolute, hlist]
    · simp [hslash, isAbsolute, hlist]

/-- A name that leads down is joined as the last segment, in the place of an empty one. -/
theorem segments_join (base : Path) {name : String} (h : Text.LeadsDown name) :
    (∃ above, segments base.text = above ++ [""] ∧
        segments (base.join name).text = above ++ [name]) ∨
      segments (base.join name).text = segments base.text ++ [name] := by
  have habsolute : isAbsolute ⟨name⟩ = false :=
    isAbsolute_eq_false_of_segments (segments_of_not_slash h.not_slash) h.ne_empty
  have hjoined := segments_join_of_relative base habsolute
  rwa [segments_of_not_slash h.not_slash] at hjoined

/-- A name that leads down is joined as the last one. -/
theorem place_join (base : Path) {name : String} (h : Text.LeadsDown name) :
    (base.join name).place = base.place ++ [name] := by
  unfold place
  rcases base.segments_join h with ⟨above, hbase, hjoined⟩ | hjoined
  · rw [hjoined, hbase, List.foldl_append, List.foldl_append]
    exact Place.step_of_leadsDown h
  · rw [hjoined, List.foldl_append]
    exact Place.step_of_leadsDown h

theorem leadsDown_of_componentOf {segment name : String} (hslash : '/' ∉ segment.toList)
    (h : componentOf segment = some (.normal name)) : segment = name ∧ Text.LeadsDown name := by
  unfold componentOf at h
  by_cases hstays : segment = "" ∨ segment = "."
  · rw [if_pos hstays] at h
    cases h
  · rw [if_neg hstays] at h
    by_cases hback : segment = ".."
    · rw [if_pos hback] at h
      cases h
    · rw [if_neg hback] at h
      cases h
      obtain ⟨hempty, hdot⟩ := not_or.mp hstays
      exact ⟨rfl, hempty, hdot, hback, hslash⟩

theorem stays_of_componentOf {segment : String} (h : componentOf segment = none) :
    segment = "" ∨ segment = "." := by
  unfold componentOf at h
  by_cases hstays : segment = "" ∨ segment = "."
  · exact hstays
  · rw [if_neg hstays] at h
    split at h <;> cases h

/-- The first of several segments is a component of its own, whatever it is. -/
theorem exists_components_of_segments {p : Path} {first second : String} {rest : List String}
    (h : segments p.text = first :: second :: rest) :
    ∃ component, p.components = component :: (second :: rest).filterMap componentOf := by
  unfold components
  rw [h]
  by_cases hempty : first = ""
  · subst hempty
    have habsolute := isAbsolute_iff_segments.mpr ⟨second, rest, h⟩
    exact ⟨.root, by simp only [habsolute, if_true, List.singleton_append]⟩
  · have hrelative := isAbsolute_eq_false_of_segments h hempty
    simp only [hrelative, Bool.false_eq_true, if_false]
    by_cases hdot : first = "."
    · exact ⟨.current, by simp only [if_pos hdot, List.singleton_append]⟩
    · rw [if_neg hdot]
      cases hcomponent : componentOf first with
      | none =>
        rcases stays_of_componentOf hcomponent with heq | heq
        · exact absurd heq hempty
        · exact absurd heq hdot
      | some component => exact ⟨component, rfl⟩

/-- Some segments lead down last by a name: it stands among them, or they all stay. -/
theorem exists_segments_of_getLast {segments : List String} {start : List Component}
    {name : String} (hslash : ∀ segment ∈ segments, '/' ∉ segment.toList)
    (h : (start ++ segments.filterMap componentOf).getLast? = some (.normal name)) :
    (∃ before after, segments = before ++ name :: after ∧ Text.LeadsDown name ∧
        ∀ segment ∈ after, segment = "" ∨ segment = ".") ∨
      (start.getLast? = some (.normal name) ∧
        ∀ segment ∈ segments, segment = "" ∨ segment = ".") := by
  induction segments using List.reverseRecOn with
  | nil => exact .inr ⟨by simpa using h, nofun⟩
  | append_singleton segments last ih =>
    obtain ⟨hbefore, hlast⟩ := List.forall_mem_append.mp hslash
    cases hcomponent : componentOf last with
    | none =>
      have hstays := stays_of_componentOf hcomponent
      have hsame : (segments ++ [last]).filterMap componentOf = segments.filterMap componentOf := by
        simp [hcomponent]
      rw [hsame] at h
      rcases ih hbefore h with ⟨before, after, rfl, hname, hafter⟩ | ⟨hstart, hall⟩
      · refine .inl ⟨before, after ++ [last], by simp, hname, ?_⟩
        exact List.forall_mem_append.mpr ⟨hafter, by simpa using hstays⟩
      · exact .inr ⟨hstart, List.forall_mem_append.mpr ⟨hall, by simpa using hstays⟩⟩
    | some component =>
      have hcomponents : start ++ (segments ++ [last]).filterMap componentOf =
          (start ++ segments.filterMap componentOf) ++ [component] := by simp [hcomponent]
      rw [hcomponents, List.getLast?_append, List.getLast?_singleton, Option.some_or,
        Option.some.injEq] at h
      rw [h] at hcomponent
      obtain ⟨rfl, hname⟩ :=
        leadsDown_of_componentOf (hlast last (List.mem_singleton_self _)) hcomponent
      exact .inl ⟨segments, [], rfl, hname, nofun⟩

/-- The last name of a path is the last segment that leads down, and nothing after it leads back. -/
theorem exists_segments_of_fileName {p : Path} {name : String} (h : p.fileName? = some name) :
    ∃ before after, segments p.text = before ++ name :: after ∧ Text.LeadsDown name ∧
      ∀ segment ∈ after, segment = "" ∨ segment = "." := by
  have hlast : p.components.getLast? = some (.normal name) := by
    unfold fileName? at h
    split at h
    · rename_i last heq
      cases h
      exact heq
    · cases h
  have hslash : ∀ segment ∈ segments p.text, '/' ∉ segment.toList :=
    fun segment hsegment => not_slash_of_mem_segments hsegment
  unfold components at hlast
  cases hsegments : segments p.text with
  | nil =>
    rw [hsegments] at hlast
    cases hlast
  | cons first rest =>
    rw [hsegments] at hlast hslash
    obtain ⟨hfirst, hrest⟩ := List.forall_mem_cons.mp hslash
    rcases exists_segments_of_getLast hrest hlast with
      ⟨before, after, rfl, hname, hafter⟩ | ⟨hstart, hall⟩
    · exact ⟨first :: before, after, rfl, hname, hafter⟩
    · split at hstart
      · cases hstart
      · split at hstart
        · cases hstart
        · have hcomponent : componentOf first = some (.normal name) := by
            cases hc : componentOf first with
            | none => simp [hc] at hstart
            | some component => simpa [hc] using hstart
          obtain ⟨rfl, hname⟩ := leadsDown_of_componentOf hfirst hcomponent
          exact ⟨[], rest, rfl, hname, hall⟩

theorem componentOf_of_leadsDown {name : String} (h : Text.LeadsDown name) :
    componentOf name = some (.normal name) := by
  unfold componentOf
  rw [if_neg (not_or.mpr ⟨h.ne_empty, h.ne_dot⟩), if_neg h.ne_dots]

theorem componentOf_of_stays {segment : String} (h : segment = "" ∨ segment = ".") :
    componentOf segment = none :=
  if_pos h

theorem filterMap_componentOf_of_stays {segments : List String}
    (h : ∀ segment ∈ segments, segment = "" ∨ segment = ".") :
    segments.filterMap componentOf = [] :=
  List.filterMap_eq_nil_iff.mpr fun segment hsegment => componentOf_of_stays (h segment hsegment)

/-- The last name of a path is the last name of its place. -/
theorem place_of_fileName {p : Path} {name : String} (h : p.fileName? = some name) :
    Text.LeadsDown name ∧ ∃ holder, p.place = holder ++ [name] := by
  obtain ⟨before, after, hsegments, hname, hafter⟩ := exists_segments_of_fileName h
  refine ⟨hname, before.foldl Place.step [], ?_⟩
  rw [place, hsegments, List.foldl_append, List.foldl_cons, Place.foldl_step_of_stays hafter]
  exact Place.step_of_leadsDown hname

end Path

namespace Installer

/-- The name of the temporary sibling of a file. -/
def partialName (target : Path) : String := "." ++ target.fileName?.getD "" ++ ".partial"

theorem partialName_leadsDown (target : Path) : Text.LeadsDown (partialName target) := by
  have hlong : 8 < (partialName target).length := by
    simp only [partialName, String.length_append]
    have hdot : ".".length = 1 := rfl
    have hpartial : ".partial".length = 8 := rfl
    omega
  have hslash : '/' ∉ (target.fileName?.getD "").toList := by
    cases hname : target.fileName? with
    | none => simp
    | some name => exact (Path.place_of_fileName hname).1.not_slash
  refine ⟨?_, ?_, ?_, by simpa [partialName] using hslash⟩
  · intro h
    rw [h] at hlong
    exact absurd hlong (by decide)
  · intro h
    rw [h] at hlong
    exact absurd hlong (by decide)
  · intro h
    rw [h] at hlong
    exact absurd hlong (by decide)

/-- The temporary sibling is beside another file of a longer name. -/
theorem partialPath_place (target : Path) :
    ∃ holder : Place, (partialPath target).place = holder ++ [partialName target] := by
  have hpartial : partialPath target = target.withFileName (partialName target) := rfl
  rw [hpartial]
  unfold Path.withFileName
  split
  · rename_i parent _ _
    exact ⟨parent.place, Path.place_join parent (partialName_leadsDown target)⟩
  · exact ⟨target.place, Path.place_join target (partialName_leadsDown target)⟩

theorem partialName_ne {target : Path} {name : String} (h : target.fileName? = some name) :
    partialName target ≠ name := by
  intro hsame
  have hlength := congrArg String.length hsame
  simp only [partialName, h, Option.getD_some, String.length_append] at hlength
  have hdot : ".".length = 1 := rfl
  omega

/-- A file is never its own temporary sibling. -/
theorem partialPath_place_ne (target : Path) : (partialPath target).place ≠ target.place := by
  cases hname : target.fileName? with
  | none =>
    have hpartial : partialPath target = target.join (partialName target) := by
      simp [partialPath, Path.withFileName, partialName, hname]
    rw [hpartial, Path.place_join target (partialName_leadsDown target)]
    intro h
    simpa using congrArg List.length h
  | some name =>
    obtain ⟨holder, hplace⟩ := partialPath_place target
    obtain ⟨-, holder', htarget⟩ := Path.place_of_fileName hname
    rw [hplace, htarget]
    intro h
    have hlast := congrArg List.getLast? h
    exact partialName_ne hname (by simpa using hlast)

end Installer

end Overseer
