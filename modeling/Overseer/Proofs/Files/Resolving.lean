import Overseer.Proofs.Files.Holdings
import Overseer.Proofs.Files.Places

/-!
What paths lead to.

A path that leads anywhere leads to the place that it names, and whether it does depends on the
directories on its way (`Tree.Passes`) and on what stands at that place (`Tree.isPresent_iff`). So
what closes no directory keeps paths leading where they led (`Tree.Keeps.isPresent`).
-/

namespace Overseer

theorem Except.bind_eq_ok {ε α β : Type} {x : Except ε α} {f : α → Except ε β} {b : β}
    (h : x >>= f = .ok b) : ∃ a, x = .ok a ∧ f a = .ok b := by
  cases x with
  | error e => cases h
  | ok a => exact ⟨a, rfl, h⟩

/-- What comes after a fault that was not thrown. -/
theorem Except.unthrown_eq_ok {ε α β : Type} {bad : Bool} {e : ε} {f : α → Except ε β}
    {rest : Except ε β} {b : β} (h : (if bad = true then throw e >>= f else rest) = .ok b) :
    bad = false ∧ rest = .ok b := by
  cases bad with
  | true => cases h
  | false => exact ⟨rfl, h⟩

/-! ### Routes -/

theorem Place.foldl_step_filter (segments : List String) (place : Place) :
    (segments.filter (· ≠ "")).foldl step place = segments.foldl step place := by
  induction segments generalizing place with
  | nil => rfl
  | cons segment rest ih =>
    by_cases hempty : segment = ""
    · rw [List.filter_cons_of_neg (by simpa using hempty), List.foldl_cons,
        step_of_stays (.inl hempty)]
      exact ih place
    · rw [List.filter_cons_of_pos (by simpa using hempty), List.foldl_cons, List.foldl_cons]
      exact ih _

/-- The route of a path leads to the place that it names. -/
theorem Route.ofPath_place {path : Path} {route : Route} (h : Route.ofPath path = .ok route) :
    path.place = (route.through.foldl Place.step []).step route.last ∧
      (∀ name ∈ route.through, name ≠ "") ∧ route.last ≠ "" := by
  unfold Route.ofPath at h
  split at h
  · cases h
  · split at h
    · cases h
    · split at h
      · cases h
      · cases h
        generalize hnames : (Path.segments path.text).filter (· ≠ "") = names
        have hplace : path.place = names.foldl Place.step [] := by
          rw [Path.place, ← hnames, Place.foldl_step_filter]
        have hnonempty : ∀ name ∈ names, name ≠ "" := by
          rw [← hnames]
          simp
        rw [hplace]
        cases hlast : names.getLast? with
        | none =>
          rw [List.getLast?_eq_none_iff.mp hlast]
          have hdot : "." ≠ "" := by decide
          exact ⟨rfl, by simp, hdot⟩
        | some last =>
          obtain ⟨before, rfl⟩ := List.getLast?_eq_some_iff.mp hlast
          obtain ⟨hbefore, hlast⟩ := List.forall_mem_append.mp hnonempty
          refine ⟨by simp, ?_, hlast last (List.mem_singleton_self _)⟩
          simpa using hbefore

/-! ### Following names -/

/-- A node that was reached from the top, step by step. -/
inductive Reached.From (top : Node) : Reached → Prop where
  | top : From top ⟨top, []⟩
  | down {holder node : Node} {name : String} {way : List (String × Node)}
      (above : From top ⟨holder, way⟩) (entry : holder.entries.lookup name = some node) :
      From top ⟨node, (name, holder) :: way⟩

namespace Reached

variable {top : Node} {r r' : Reached} {name : String}

theorem place_cons (node holder : Node) (name : String) (way : List (String × Node)) :
    place ⟨node, (name, holder) :: way⟩ = place ⟨holder, way⟩ ++ [name] := by
  simp [place]

theorem From.get?_eq (h : From top r) : top.get? r.place = some r.node := by
  induction h with
  | top => rfl
  | down above entry ih =>
    rw [place_cons, Node.get?_append, ih]
    simp [Node.get?, entry]

theorem From.entry? (h : From top r) (hname : name ≠ "") (hentry : r.entry? name = .ok (some r')) :
    From top r' ∧ r'.place = r.place.step name := by
  unfold Reached.entry? at hentry
  by_cases hdot : name = "."
  · rw [if_pos hdot] at hentry
    cases hentry
    exact ⟨h, (Place.step_of_stays (.inr hdot)).symm⟩
  · rw [if_neg hdot] at hentry
    by_cases hdots : name = ".."
    · rw [if_pos hdots] at hentry
      have hstep (place : Place) : place.step name = place.dropLast := by
        simp [Place.step, hdots]
      cases h with
      | top =>
        cases hentry
        exact ⟨.top, by rw [hstep]; rfl⟩
      | down above entry =>
        cases hentry
        exact ⟨above, by rw [hstep, place_cons, List.dropLast_concat]⟩
    · rw [if_neg hdots] at hentry
      by_cases hlong : maxNameLength < name.utf8ByteSize
      · rw [if_pos hlong] at hentry
        cases hentry
      · rw [if_neg hlong] at hentry
        obtain ⟨node, hnode, rfl⟩ := Option.map_eq_some_iff.mp (Except.ok.inj hentry)
        refine ⟨.down h hnode, ?_⟩
        rw [place_cons, Place.step, if_neg (not_or.mpr ⟨hname, hdot⟩), if_neg hdots]

theorem step_ok (h : r.step name = .ok r') : r.enter = .ok () ∧ r.entry? name = .ok (some r') := by
  unfold step at h
  split at h
  · cases h
  · cases h
  · cases h
  · rename_i henter hentry
    cases h
    exact ⟨henter, hentry⟩

theorem From.follow {names : List String} (h : From top r) (hnames : ∀ name ∈ names, name ≠ "")
    (hfollow : r.follow names = .ok r') :
    From top r' ∧ r'.place = names.foldl Place.step r.place := by
  induction names generalizing r with
  | nil =>
    cases hfollow
    exact ⟨h, rfl⟩
  | cons name rest ih =>
    obtain ⟨hname, hrest⟩ := List.forall_mem_cons.mp hnames
    unfold Reached.follow at hfollow
    split at hfollow
    · cases hfollow
    · rename_i next hstep
      obtain ⟨hnext, hplace⟩ := h.entry? hname (step_ok hstep).2
      rw [List.foldl_cons, ← hplace]
      exact ih hnext hrest hfollow

end Reached

/-! ### Ways through directories -/

namespace Tree

variable {t t' : Tree} {path : Path} {place : Place}

/-- Names can be looked up at a place. -/
def IsOpen (t : Tree) (place : Place) : Prop :=
  ∃ mode, t.holding? place = some (.directory mode) ∧ mode &&& Right.search.bit ≠ 0

/-- A name that can be looked up at all. -/
def Admissible (name : String) : Prop :=
  name = "." ∨ name = ".." ∨ name.utf8ByteSize ≤ maxNameLength

/-- From a place names lead on through directories, the last one included. -/
def Passes (t : Tree) : Place → List String → Prop
  | place, [] => t.IsOpen place
  | place, name :: rest => t.IsOpen place ∧ Admissible name ∧ t.Passes (place.step name) rest

/-- Two trees with the same directories. -/
def SameDirectories (t t' : Tree) : Prop :=
  ∀ place mode, t'.holding? place = some (.directory mode) ↔
    t.holding? place = some (.directory mode)

theorem SameDirectories.refl (t : Tree) : t.SameDirectories t := fun _ _ => Iff.rfl

theorem SameDirectories.symm (h : t.SameDirectories t') : t'.SameDirectories t :=
  fun place mode => (h place mode).symm

theorem SameDirectories.trans {t'' : Tree} (h : t.SameDirectories t')
    (h' : t'.SameDirectories t'') : t.SameDirectories t'' :=
  fun place mode => (h' place mode).trans (h place mode)

/-- Every directory stays one, and names that could be looked up there still can. -/
structure Keeps (t t' : Tree) : Prop where
  isOpen : ∀ place, t.IsOpen place → t'.IsOpen place
  directory : ∀ place mode, t.holding? place = some (.directory mode) →
    ∃ mode', t'.holding? place = some (.directory mode')

theorem Keeps.trans {t'' : Tree} (h : t.Keeps t') (h' : t'.Keeps t'') : t.Keeps t'' where
  isOpen place hopen := h'.isOpen place (h.isOpen place hopen)
  directory := by
    intro place mode hmode
    obtain ⟨mode', hmode'⟩ := h.directory place mode hmode
    exact h'.directory place mode' hmode'

theorem SameDirectories.keeps (h : t.SameDirectories t') : t.Keeps t' where
  isOpen := by
    rintro place ⟨mode, hmode, hsearch⟩
    exact ⟨mode, (h place mode).mpr hmode, hsearch⟩
  directory place mode hmode := ⟨mode, (h place mode).mpr hmode⟩

theorem Keeps.passes (h : t.Keeps t') {names : List String} (hpasses : t.Passes place names) :
    t'.Passes place names := by
  induction names generalizing place with
  | nil => exact h.isOpen place hpasses
  | cons name rest ih =>
    obtain ⟨hopen, hname, hrest⟩ := hpasses
    exact ⟨h.isOpen place hopen, hname, ih hrest⟩

variable {r r' : Reached} {name : String}

theorem holding?_of_from (h : r.From t.top) : t.holding? r.place = some r.node.holding := by
  rw [holding?, get?, h.get?_eq]
  rfl

theorem enter_iff (h : r.From t.top) : r.enter = .ok () ↔ t.IsOpen r.place := by
  unfold IsOpen Reached.enter
  rw [holding?_of_from h]
  cases r.node with
  | file content mode => simp [Node.isDirectory, Node.holding]
  | directory mode es =>
    by_cases hsearch : mode &&& Right.search.bit = 0
    · simp [Node.isDirectory, Node.holding, Node.allows, Node.mode, hsearch]
    · simp [Node.isDirectory, Node.holding, Node.allows, Node.mode, hsearch]

theorem admissible_of_entry? {found : Option Reached} (h : r.entry? name = .ok found) :
    Admissible name := by
  unfold Reached.entry? at h
  by_cases hdot : name = "."
  · exact .inl hdot
  · by_cases hdots : name = ".."
    · exact .inr (.inl hdots)
    · rw [if_neg hdot, if_neg hdots] at h
      by_cases hlong : maxNameLength < name.utf8ByteSize
      · rw [if_pos hlong] at h
        cases h
      · exact .inr (.inr (Nat.not_lt.mp hlong))

/-- What is looked up is what stands at the place of the name. -/
theorem entry?_eq (h : r.From t.top) (hname : name ≠ "") (hlong : Admissible name) :
    ∃ found : Option Reached, r.entry? name = .ok found ∧
      found.map (·.node.holding) = t.holding? (r.place.step name) := by
  by_cases hdot : name = "."
  · refine ⟨some r, by simp [Reached.entry?, hdot], ?_⟩
    rw [Place.step_of_stays (.inr hdot), holding?_of_from h]
    rfl
  · by_cases hdots : name = ".."
    · cases h with
      | top =>
        refine ⟨some ⟨t.top, []⟩, by simp [Reached.entry?, hdots], ?_⟩
        simp [Place.step, hdots, Reached.place, holding?, get?, Node.get?]
      | @down holder node last way above entry =>
        refine ⟨some ⟨holder, way⟩, by simp [Reached.entry?, hdots], ?_⟩
        have hstep : (Reached.place ⟨node, (last, holder) :: way⟩).step name =
            Reached.place ⟨holder, way⟩ := by
          simp [Place.step, hdots, Reached.place_cons]
        rw [hstep, holding?_of_from above]
        rfl
    · have hshort : ¬ maxNameLength < name.utf8ByteSize := by
        rcases hlong with h | h | h
        · exact absurd h hdot
        · exact absurd h hdots
        · exact Nat.not_lt.mpr h
      have hentry : r.entry? name = .ok ((r.node.entries.lookup name).map fun node =>
          ⟨node, (name, r.node) :: r.way⟩) := by
        rw [Reached.entry?, if_neg hdot, if_neg hdots, if_neg hshort]
      have hstep : r.place.step name = r.place ++ [name] := by
        rw [Place.step, if_neg (not_or.mpr ⟨hname, hdot⟩), if_neg hdots]
      refine ⟨_, hentry, ?_⟩
      rw [hstep, holding?, get?, Node.get?_append, h.get?_eq]
      cases hlookup : r.node.entries.lookup name with
      | none => simp [Node.get?, hlookup]
      | some child => simp [Node.get?, hlookup]

/-- Names can be followed to an open directory exactly if they lead through directories. -/
theorem follow_enter_iff {names : List String} (h : r.From t.top)
    (hnames : ∀ name ∈ names, name ≠ "") :
    (∃ r', r.follow names = .ok r' ∧ r'.enter = .ok ()) ↔ t.Passes r.place names := by
  induction names generalizing r with
  | nil =>
    rw [Passes, ← enter_iff h]
    simp [Reached.follow]
  | cons name rest ih =>
    obtain ⟨hname, hrest⟩ := List.forall_mem_cons.mp hnames
    constructor
    · rintro ⟨r', hfollow, henter⟩
      unfold Reached.follow at hfollow
      split at hfollow
      · cases hfollow
      · rename_i next hstep
        obtain ⟨hopen, hentry⟩ := Reached.step_ok hstep
        obtain ⟨hnext, hplace⟩ := h.entry? hname hentry
        refine ⟨(enter_iff h).mp hopen, admissible_of_entry? hentry, ?_⟩
        rw [← hplace]
        exact (ih hnext hrest).mp ⟨r', hfollow, henter⟩
    · rintro ⟨hopen, hadmissible, hpasses⟩
      obtain ⟨found, hentry, hfound⟩ := entry?_eq h hname hadmissible
      have hthere : t.IsOpen (r.place.step name) := by
        cases rest with
        | nil => exact hpasses
        | cons next more => exact hpasses.1
      obtain ⟨mode, hmode, -⟩ := hthere
      rw [hmode] at hfound
      obtain ⟨next, rfl, -⟩ := Option.map_eq_some_iff.mp hfound
      obtain ⟨hnext, hplace⟩ := h.entry? hname hentry
      have hstep : r.step name = .ok next := by
        unfold Reached.step
        rw [(enter_iff h).mpr hopen, hentry]
      rw [← hplace] at hpasses
      obtain ⟨r', hfollow, henter⟩ := (ih hnext hrest).mpr hpasses
      exact ⟨r', by rw [Reached.follow, hstep]; exact hfollow, henter⟩

/-! ### Slots -/

/-- A slot that a path leads to, with its route. -/
structure Slots (t : Tree) (path : Path) (route : Route) (s : Slot) : Prop where
  routed : Route.ofPath path = .ok route
  name : s.name = route.last
  slash : s.slash = route.slash
  reached : s.holder.From t.top
  holder : s.holder.place = route.through.foldl Place.step []
  entered : t.IsOpen s.holder.place
  passes : t.Passes [] route.through

theorem slot_ok {s : Slot} (h : t.top.slot path = .ok s) : ∃ route, t.Slots path route s := by
  unfold Node.slot at h
  obtain ⟨route, hroute, h⟩ := Except.bind_eq_ok h
  obtain ⟨holder, hfollow, h⟩ := Except.bind_eq_ok h
  obtain ⟨_, henter, h⟩ := Except.bind_eq_ok h
  cases h
  obtain ⟨-, hthrough, -⟩ := Route.ofPath_place hroute
  have htop : Reached.From t.top ⟨t.top, []⟩ := .top
  obtain ⟨hfrom, hplace⟩ := htop.follow hthrough hfollow
  exact ⟨route, {
    routed := hroute
    name := rfl
    slash := rfl
    reached := hfrom
    holder := hplace
    entered := (enter_iff hfrom).mp henter
    passes := (follow_enter_iff htop hthrough).mp ⟨holder, hfollow, henter⟩ }⟩

namespace Slots

variable {route : Route} {s : Slot} (h : t.Slots path route s)

include h

/-- What a slot is named after is not empty, -/
theorem name_ne : s.name ≠ "" := by
  rw [h.name]
  exact (Route.ofPath_place h.routed).2.2

/-- and with the place of the directory it gives the place that the path names. -/
theorem path_place : path.place = s.holder.place.step s.name := by
  rw [h.holder, h.name]
  exact (Route.ofPath_place h.routed).1

theorem place_eq (hdots : s.isDots = false) : s.place = path.place := by
  have hnames : s.name ≠ "." ∧ s.name ≠ ".." := by
    simpa [Slot.isDots, not_or] using hdots
  rw [h.path_place, Place.step, if_neg (not_or.mpr ⟨h.name_ne, hnames.1⟩), if_neg hnames.2]
  rfl

/-- What is in a slot stands at the place that the path names. -/
theorem node?_eq {node? : Option Node} (hnode : s.node? = .ok node?) :
    node?.map Node.holding = t.holding? path.place ∧ Admissible s.name := by
  unfold Slot.node? at hnode
  cases hentry : s.holder.entry? s.name with
  | error fault =>
    rw [hentry] at hnode
    cases hnode
  | ok found =>
    rw [hentry] at hnode
    cases hnode
    have hadmissible := admissible_of_entry? hentry
    obtain ⟨found', hfound', hholding⟩ := entry?_eq h.reached h.name_ne hadmissible
    rw [hentry] at hfound'
    cases hfound'
    rw [h.path_place, ← hholding]
    exact ⟨Option.map_map .., hadmissible⟩

/-- Something can be put into a slot. -/
theorem hasRoom (hdots : s.isDots = false) : t.HasRoom path.place := by
  obtain ⟨mode, hholder, -⟩ := h.entered
  refine .inr ⟨mode, ?_⟩
  rw [← h.place_eq hdots, Slot.place, List.dropLast_concat]
  exact hholder

theorem place_ne_nil (hdots : s.isDots = false) : path.place ≠ [] := by
  rw [← h.place_eq hdots, Slot.place]
  exact List.append_ne_nil_of_right_ne_nil _ (List.cons_ne_nil _ _)

end Slots

/-! ### Presence -/

/-- Something is found exactly where names lead through directories to something that stands
there. -/
theorem find_ok {found : Reached} (h : t.find path = .ok found) :
    found.From t.top ∧ found.place = path.place ∧ ∃ route, Route.ofPath path = .ok route ∧
      t.Passes [] route.through ∧ Admissible route.last ∧
      (route.slash = true → ∃ mode, t.holding? path.place = some (.directory mode)) := by
  unfold find Node.find at h
  obtain ⟨route, hroute, h⟩ := Except.bind_eq_ok h
  obtain ⟨holder, hfollow, h⟩ := Except.bind_eq_ok h
  obtain ⟨next, hstep, h⟩ := Except.bind_eq_ok h
  obtain ⟨hslash, h⟩ := Except.unthrown_eq_ok h
  cases h
  obtain ⟨hplace, hthrough, hlast⟩ := Route.ofPath_place hroute
  have htop : Reached.From t.top ⟨t.top, []⟩ := .top
  obtain ⟨hfrom, hholder⟩ := htop.follow hthrough hfollow
  obtain ⟨henter, hentry⟩ := Reached.step_ok hstep
  obtain ⟨hfound, hfoundPlace⟩ := hfrom.entry? hlast hentry
  have hpath : found.place = path.place := by
    rw [hfoundPlace, hholder, hplace]
    rfl
  have hpasses := (follow_enter_iff htop hthrough).mp ⟨holder, hfollow, henter⟩
  refine ⟨hfound, hpath, route, hroute, hpasses, admissible_of_entry? hentry, fun hs => ?_⟩
  rw [← hpath, holding?_of_from hfound]
  cases hnode : found.node with
  | file content mode => simp [hs, hnode, Node.isDirectory] at hslash
  | directory mode es => exact ⟨mode, rfl⟩

theorem exists_find {route : Route} {h : Holding} (hroute : Route.ofPath path = .ok route)
    (hpasses : t.Passes [] route.through) (hadmissible : Admissible route.last)
    (hthere : t.holding? path.place = some h)
    (hslash : route.slash = true → ∃ mode, t.holding? path.place = some (.directory mode)) :
    ∃ found, t.find path = .ok found := by
  obtain ⟨hplace, hthrough, hlast⟩ := Route.ofPath_place hroute
  have htop : Reached.From t.top ⟨t.top, []⟩ := .top
  obtain ⟨holder, hfollow, henter⟩ := (follow_enter_iff htop hthrough).mpr hpasses
  obtain ⟨hfrom, hholder⟩ := htop.follow hthrough hfollow
  obtain ⟨next?, hentry, hfound⟩ := entry?_eq hfrom hlast hadmissible
  have hpath : holder.place.step route.last = path.place := by rw [hholder, hplace]; rfl
  rw [hpath, hthere] at hfound
  obtain ⟨next, rfl, hnext⟩ := Option.map_eq_some_iff.mp hfound
  have hstep : holder.step route.last = .ok next := by
    unfold Reached.step
    rw [henter, hentry]
  have hgood : (route.slash && !next.node.isDirectory) = false := by
    cases hs : route.slash with
    | false => rfl
    | true =>
      obtain ⟨mode, hmode⟩ := hslash hs
      rw [hmode, Option.some.injEq] at hthere
      cases hnode : next.node with
      | file content mode' =>
        rw [hnode, ← hthere] at hnext
        cases hnext
      | directory mode' es => rfl
  refine ⟨next, ?_⟩
  simp [find, Node.find, bind, Except.bind, hroute, hfollow, hstep, hgood, pure, Except.pure]

theorem isPresent_iff :
    t.isPresent path = true ↔ ∃ found, t.find path = .ok found := by
  unfold isPresent
  cases t.find path with
  | error fault => simp [Except.isOk, Except.toBool]
  | ok found => simp [Except.isOk, Except.toBool]

theorem exists_holding_of_isPresent (h : t.isPresent path = true) :
    ∃ holding, t.holding? path.place = some holding := by
  obtain ⟨found, hfound⟩ := isPresent_iff.mp h
  obtain ⟨hfrom, hplace, -⟩ := find_ok hfound
  exact ⟨_, hplace ▸ holding?_of_from hfrom⟩

/-- A path stays present while directories stay open and something stands at its place. -/
theorem Keeps.isPresent {h : Holding} (hkeeps : t.Keeps t') (hpresent : t.isPresent path = true)
    (hthere : t'.holding? path.place = some h) : t'.isPresent path = true := by
  obtain ⟨found, hfound⟩ := isPresent_iff.mp hpresent
  obtain ⟨-, -, route, hroute, hpasses, hadmissible, hslash⟩ := find_ok hfound
  refine isPresent_iff.mpr (exists_find hroute (hkeeps.passes hpasses) hadmissible hthere ?_)
  intro hs
  obtain ⟨mode, hmode⟩ := hslash hs
  exact hkeeps.directory path.place mode hmode

/-- What a path without a slash at its end names is present where it stands. -/
theorem Slots.isPresent {route : Route} {s : Slot} {h : Holding} (hslot : t.Slots path route s)
    (hkeeps : t.Keeps t') (hadmissible : Admissible s.name) (hslash : s.slash = false)
    (hthere : t'.holding? path.place = some h) : t'.isPresent path = true := by
  refine isPresent_iff.mpr (exists_find hslot.routed (hkeeps.passes hslot.passes) ?_ hthere ?_)
  · rw [← hslot.name]
    exact hadmissible
  · intro hs
    rw [← hslot.slash, hslash] at hs
    cases hs

end Tree

end Overseer
