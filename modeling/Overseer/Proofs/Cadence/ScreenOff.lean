import Overseer.Proofs.Cadence.Sampling
import Overseer.Proofs.Polling.Turns

/-!
The first read after the screen went off.

Switching the screen off raises the counter of skipped full reads to the threshold, so that the next
read is full. A lower threshold takes the counter along, but a higher one leaves it behind. So the
first read after the switch is full exactly if its tick is forced or sets up, or the threshold is
not above any that was in effect since the switch (`first_read_full_iff`).
-/

namespace Overseer

open Program

/-- The first tick that comes to a read after the screen was switched off, with no other switch in
between. -/
structure FirstRead (beats : List Beat) (off : Beat) (between : List Beat) (tick : Beat) :
    Prop where
  part : off :: (between ++ [tick]) <:+: beats
  switched : off.move = .screen false
  unswitched : ∀ b ∈ between, ∀ on, b.move ≠ .screen on
  unread : ∀ b ∈ between, b.read? = none
  reads : tick.read?.isSome

/-! ### Beats without a read -/

namespace Beat

theorem unhurried_tick_iff {before after : Cadence} {forced prepared reported : Bool}
    {read : Option ReadKind} :
    Unhurried ⟨before, .tick forced prepared reported read, after⟩ ↔
      forced = false ∧ prepared = false := by
  constructor
  · intro h
    exact h.unforced forced prepared reported read rfl
  · intro h
    refine ⟨nofun, ?_⟩
    rintro forced prepared reported read ⟨⟩
    exact h

/-- A beat that neither switches the screen nor reads may only lower the counter, down to the
threshold. -/
theorem Regular.lull {b : Beat} (h : b.Regular) (hbefore : b.before.skips ≤ b.before.threshold)
    (hunswitched : ∀ on, b.move ≠ .screen on) (hunread : b.read? = none) :
    b.after.screenOn = b.before.screenOn ∧
      b.after.skips = min b.before.skips b.after.threshold := by
  cases h with
  | unready c forced reported => exact ⟨rfl, (Nat.min_eq_left hbefore).symm⟩
  | read c forced prepared reported => cases hunread
  | screen c on => exact absurd rfl (hunswitched on)
  | threshold c threshold => exact ⟨rfl, rfl⟩

/-- With the screen off, a tick that comes to its read reads in full exactly if something asks for
it or the counter has reached the threshold. -/
theorem Regular.full_iff {b : Beat} (h : b.Regular) (hscreen : b.before.screenOn = false)
    (hreads : b.read?.isSome) :
    b.read? = some .full ↔ ¬b.Unhurried ∨ b.before.threshold ≤ b.before.skips := by
  cases h with
  | unready c forced reported => cases hreads
  | screen c on => cases hreads
  | threshold c threshold => cases hreads
  | read c forced prepared reported =>
    rw [unhurried_tick_iff, ← Bool.or_eq_false_iff]
    rcases c.next_cases (forced || prepared) with
      ⟨hnext, hunforced, -, hskips⟩ | ⟨hnext, hdue⟩
    · refine iff_of_false (by simp [read?, hnext]) ?_
      rintro (hhurried | hdue)
      · exact hhurried hunforced
      · exact absurd hskips (Nat.not_lt.mpr hdue)
    · refine iff_of_true (by simp [read?, hnext]) ?_
      rcases hdue with hforced | hon | hdue
      · exact .inl (by simp [hforced])
      · exact absurd (hscreen.symm.trans hon) Bool.false_ne_true
      · exact .inr hdue

end Beat

/-! ### Over a run -/

namespace Cadence.Keeps

variable {c c' : Cadence} {between : List Beat}

/-- Over beats that neither switch the screen nor read, the counter falls to the lowest threshold
that was in effect. -/
theorem lull (h : Keeps c between c') (hc : c.skips ≤ c.threshold)
    (hunswitched : ∀ b ∈ between, ∀ on, b.move ≠ .screen on)
    (hunread : ∀ b ∈ between, b.read? = none) :
    c'.screenOn = c.screenOn ∧
      ∀ n, n ≤ c'.skips ↔ n ≤ c.skips ∧ ∀ b ∈ between, n ≤ b.after.threshold := by
  induction h with
  | nil c => exact ⟨rfl, fun n => by simp⟩
  | @cons b rest c' regular hrest ih =>
    obtain ⟨hb, hunswitched⟩ := List.forall_mem_cons.mp hunswitched
    obtain ⟨hread, hunread⟩ := List.forall_mem_cons.mp hunread
    obtain ⟨hscreen, hskips⟩ := regular.lull hc hb hread
    obtain ⟨hscreen', hskips'⟩ := ih (regular.within hc).after hunswitched hunread
    refine ⟨hscreen'.trans hscreen, fun n => ?_⟩
    rw [hskips', hskips, Nat.le_min, List.forall_mem_cons, and_assoc]

end Cadence.Keeps

/-- Whatever wakes a session between a switch of the screen to off and the first read after it: this
read is full exactly if its tick is forced or sets up, or no lower threshold was in effect since the
switch. -/
theorem first_read_full_iff {config : Config} {platform : Platform} {host : HostIdentity}
    {displayOn : Bool} {now : Nat} {beats between : List Beat} {off tick : Beat} {s : Session}
    (run : (Session.start (.ofConfig config platform host displayOn) now).Paces beats s)
    (first : FirstRead beats off between tick) :
    tick.read? = some .full ↔
      ¬tick.Unhurried ∨ ∀ b ∈ off :: between, tick.before.threshold ≤ b.after.threshold := by
  obtain ⟨c, c', hkeeps, hc⟩ := run.keeps.part (Nat.zero_le _) first.part
  obtain _ | ⟨hoff, hrest⟩ := hkeeps
  obtain ⟨last, hbetween, htick⟩ := hrest.split
  obtain _ | ⟨hregular, -⟩ := htick
  have hswitched : off.after = off.before.setScreen false := by
    obtain ⟨before, move, after⟩ := off
    obtain rfl : move = .screen false := first.switched
    cases hoff
    rfl
  obtain ⟨hscreen, hskips⟩ :=
    hbetween.lull (hoff.within hc).after first.unswitched first.unread
  rw [hswitched] at hscreen hskips
  rw [hregular.full_iff hscreen first.reads, hskips, List.forall_mem_cons, hswitched]
  rfl

/-! ### Two thresholds -/

theorem Session.Paces.trans {s s' s'' : Session} {first second : List Beat}
    (h : s.Paces first s') (h' : s'.Paces second s'') : s.Paces (first ++ second) s'' := by
  induction h' with
  | start => rwa [List.append_nil]
  | wake run handled followed ih =>
    rw [← List.append_assoc]
    exact .wake ih handled followed

/-- The beats of some turns, each with its wake. -/
def beatsOf (turns : List (Wake × Turn)) : List Beat :=
  turns.flatMap fun (wake, t) => t.before.beats wake t.trace t.after

theorem Session.paces_play {answer : (effect : Effect) → effect.Answer} (s : Session)
    (wakes : List Wake) : s.Paces (beatsOf (s.play answer wakes).1) (s.play answer wakes).2 := by
  induction wakes generalizing s with
  | nil => exact .start
  | cons wake rest ih =>
    unfold play
    cases hhandle : s.handle 0 wake with
    | none => exact .start
    | some action =>
      have hwake := Paces.wake .start hhandle (follows_converse (fun _ => answer) [] action)
      exact hwake.trans (ih _)

/-- A session from the start of a supervisor with the screen on and a threshold of 10. -/
def screenOnSession : Session := .start (.ofConfig {} .arm64 ⟨"", ""⟩ true) 0

/-- The screen goes off once the worker is connected, and before the next tick the threshold is
changed. -/
def changedAfterOff (threshold : Nat) : List (Wake × Turn) × Session :=
  screenOnSession.play Effect.plain
    [.tick, .command (.displayChanged false),
      .command (.reconfigure { skipThreshold := threshold }), .tick]

theorem firstRead_changedAfterOff {threshold : Nat} {first off changed tick : Beat}
    (h : beatsOf (changedAfterOff threshold).1 = [first, off, changed, tick])
    (hoff : off.move = .screen false) (hchanged : changed.move = .threshold threshold)
    (htick : tick.read?.isSome) :
    FirstRead (beatsOf (changedAfterOff threshold).1) off [changed] tick where
  part := ⟨[first], [], h.symm⟩
  switched := hoff
  unswitched := by simp [hchanged]
  unread := by simp [Beat.read?, hchanged]
  reads := htick

/-- After a lower threshold the first read is full. -/
theorem first_read_full_lowered :
    ∃ beats off between tick s, screenOnSession.Paces beats s ∧
      FirstRead beats off between tick ∧ between.map Beat.move = [.threshold 5] ∧
      tick.Unhurried ∧ tick.read? = some .full ∧
      (tick.read? = some .full ↔
        ¬tick.Unhurried ∨ ∀ b ∈ off :: between, tick.before.threshold ≤ b.after.threshold) := by
  have hpaces : screenOnSession.Paces (beatsOf (changedAfterOff 5).1) (changedAfterOff 5).2 :=
    screenOnSession.paces_play _
  have hbeats : beatsOf (changedAfterOff 5).1 =
      [⟨⟨true, 0, 10⟩, .tick false true true (some .full), ⟨true, 0, 10⟩⟩,
        ⟨⟨true, 0, 10⟩, .screen false, ⟨false, 10, 10⟩⟩,
        ⟨⟨false, 10, 10⟩, .threshold 5, ⟨false, 5, 5⟩⟩,
        ⟨⟨false, 5, 5⟩, .tick false false true (some .full), ⟨false, 0, 5⟩⟩] := by
    decide +kernel
  have hfirst := firstRead_changedAfterOff hbeats rfl rfl rfl
  exact ⟨_, _, _, _, _, hpaces, hfirst, rfl, Beat.unhurried_tick_iff.mpr ⟨rfl, rfl⟩, rfl,
    first_read_full_iff hpaces hfirst⟩

/-- After a higher one it is minimal. -/
theorem first_read_minimal_raised :
    ∃ beats off between tick s, screenOnSession.Paces beats s ∧
      FirstRead beats off between tick ∧ between.map Beat.move = [.threshold 20] ∧
      tick.read? = some .minimal := by
  have hbeats : beatsOf (changedAfterOff 20).1 =
      [⟨⟨true, 0, 10⟩, .tick false true true (some .full), ⟨true, 0, 10⟩⟩,
        ⟨⟨true, 0, 10⟩, .screen false, ⟨false, 10, 10⟩⟩,
        ⟨⟨false, 10, 10⟩, .threshold 20, ⟨false, 10, 20⟩⟩,
        ⟨⟨false, 10, 20⟩, .tick false false true (some .minimal), ⟨false, 11, 20⟩⟩] := by
    decide +kernel
  have hfirst := firstRead_changedAfterOff hbeats rfl rfl rfl
  exact ⟨_, _, _, _, _, screenOnSession.paces_play _, hfirst, rfl, rfl⟩

end Overseer
