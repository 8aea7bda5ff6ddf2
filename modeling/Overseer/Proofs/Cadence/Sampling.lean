import Overseer.Proofs.Cadence.Beats

/-!
How often a worker is read in full.

The counter of skipped full reads stays within the threshold whatever happens, and few kinds of
beats raise or lower it. From this follow both sides of the sampling with the screen off: full reads
are never starved (`Cadence.Keeps.skips_add_length_le`), and between two of them come as many
minimal ones as the threshold says (`Cadence.Keeps.paced`). `cadence_sampled` states all of it over
the runs of a session.
-/

namespace Overseer

open Program

/-! ### One tick -/

namespace Cadence

variable (c : Cadence) (force reported : Bool)

/-- A tick reads minimally, and counts, or it reads in full. -/
theorem next_cases :
    (c.next force = (.minimal, { c with skips := c.skips + 1 }) ∧
        force = false ∧ c.screenOn = false ∧ c.skips < c.threshold) ∨
      (c.next force = (.full, c) ∧
        (force = true ∨ c.screenOn = true ∨ c.threshold ≤ c.skips)) := by
  unfold next
  by_cases hwake : force || c.screenOn
  · rw [if_pos hwake]
    rcases Bool.or_eq_true_iff.mp hwake with hforce | hscreen
    · exact .inr ⟨rfl, .inl hforce⟩
    · exact .inr ⟨rfl, .inr (.inl hscreen)⟩
  · rw [if_neg hwake]
    obtain ⟨hforce, hscreen⟩ : force = false ∧ c.screenOn = false := by simpa using hwake
    by_cases hskips : c.skips < c.threshold
    · rw [if_pos hskips]
      exact .inl ⟨rfl, hforce, hscreen, hskips⟩
    · rw [if_neg hskips]
      exact .inr ⟨rfl, .inr (.inr (Nat.not_lt.mp hskips))⟩

/-- A minimal read counts however its report went; a full read starts the count anew if the screen
is off and the report went through. -/
theorem ticked_cases :
    (c.next force = (.minimal, { c with skips := c.skips + 1 }) ∧
        c.ticked force reported = { c with skips := c.skips + 1 } ∧
        force = false ∧ c.screenOn = false ∧ c.skips < c.threshold) ∨
      (c.next force = (.full, c) ∧
        (force = true ∨ c.screenOn = true ∨ c.threshold ≤ c.skips) ∧
        ((reported = true ∧ c.screenOn = false ∧ c.ticked force reported = { c with skips := 0 }) ∨
          ((reported = false ∨ c.screenOn = true) ∧ c.ticked force reported = c))) := by
  rcases c.next_cases force with ⟨hnext, hunforced, hscreen, hskips⟩ | ⟨hnext, hdue⟩
  · refine .inl ⟨hnext, ?_, hunforced, hscreen, hskips⟩
    simp [ticked, hnext, Cadence.reported]
  · refine .inr ⟨hnext, hdue, ?_⟩
    cases reported with
    | false => exact .inr ⟨.inl rfl, by simp [ticked, hnext]⟩
    | true =>
      cases hscreen : c.screenOn with
      | false => exact .inl ⟨rfl, rfl, by simp [ticked, hnext, Cadence.reported, hscreen]⟩
      | true => exact .inr ⟨.inr rfl, by simp [ticked, hnext, Cadence.reported, hscreen]⟩

end Cadence

/-! ### One beat -/

namespace Beat

/-- The screen state that a beat brings. -/
def screen? (b : Beat) : Option Bool :=
  match b.move with
  | .screen on => some on
  | _ => none

/-- The threshold that a beat brings. -/
def threshold? (b : Beat) : Option Nat :=
  match b.move with
  | .threshold threshold => some threshold
  | _ => none

/-- What a beat brings is set, and the rest of the settings stay. -/
structure Sets (b : Beat) : Prop where
  screen : b.after.screenOn = b.screen?.getD b.before.screenOn
  threshold : b.after.threshold = b.threshold?.getD b.before.threshold

/-- A minimal read is one that nothing asks to be full. -/
def Sampled (b : Beat) : Prop :=
  ∀ forced prepared reported kind, b.move = .tick forced prepared reported (some kind) →
    (kind = .minimal ↔ forced = false ∧ prepared = false ∧ b.before.screenOn = false ∧
      b.before.skips < b.before.threshold)

/-- The counter is raised by minimal reads, by one each, and to the threshold when the screen goes
off. -/
structure Raises (b : Beat) : Prop where
  counted : b.read? = some .minimal → b.after.skips = b.before.skips + 1
  only : b.before.skips < b.after.skips → b.read? = some .minimal ∨
    (b.move = .screen false ∧ b.after.skips = b.before.threshold)

/-- The counter is lowered by a lower threshold, down to that, and by full reads with the screen off
whose report went through, to zero. -/
def Lowers (b : Beat) : Prop :=
  b.after.skips < b.before.skips →
    (b.move = .threshold b.after.threshold ∧ b.after.threshold < b.before.threshold ∧
        b.after.skips = b.after.threshold) ∨
      (b.after.skips = 0 ∧ b.before.screenOn = false ∧
        ∃ forced prepared, b.move = .tick forced prepared true (some .full))

/-- Nothing asks for a full read: the screen is not switched, and a tick is neither forced nor sets
up. -/
structure Unhurried (b : Beat) : Prop where
  unswitched : ∀ on, b.move ≠ .screen on
  unforced : ∀ forced prepared reported read, b.move = .tick forced prepared reported read →
    forced = false ∧ prepared = false

/-- The counter is within the threshold, before, within and after a beat. -/
structure Within (b : Beat) : Prop where
  before : b.before.skips ≤ b.before.threshold
  inside : b.inside.skips ≤ b.inside.threshold
  after : b.after.skips ≤ b.after.threshold

namespace Regular

variable {b : Beat}

theorem sets (h : b.Regular) : b.Sets := by
  cases h with
  | unready c forced reported => exact ⟨rfl, rfl⟩
  | screen c on => exact ⟨rfl, rfl⟩
  | threshold c threshold => exact ⟨rfl, rfl⟩
  | read c forced prepared reported =>
    rcases c.ticked_cases (forced || prepared) reported with
      ⟨-, hticked, -⟩ | ⟨-, -, ⟨-, -, hticked⟩ | ⟨-, hticked⟩⟩
    all_goals
      constructor
      · simp only [hticked]
        rfl
      · simp only [hticked]
        rfl

theorem sampled (h : b.Regular) : b.Sampled := by
  intro forced prepared reported kind hmove
  cases h with
  | unready c => cases hmove
  | screen c => cases hmove
  | threshold c => cases hmove
  | read c forced' prepared' reported' =>
    cases hmove
    rcases c.next_cases (forced || prepared) with
      ⟨hnext, hunforced, hscreen, hskips⟩ | ⟨hnext, hdue⟩
    · rw [hnext]
      obtain ⟨hforced, hprepared⟩ := Bool.or_eq_false_iff.mp hunforced
      exact iff_of_true rfl ⟨hforced, hprepared, hscreen, hskips⟩
    · rw [hnext]
      refine iff_of_false nofun ?_
      rintro ⟨hforced, hprepared, hscreen, hskips⟩
      rcases hdue with hdue | hdue | hdue
      · rw [hforced, hprepared] at hdue
        cases hdue
      · exact Bool.false_ne_true (hscreen.symm.trans hdue)
      · exact absurd hskips (Nat.not_lt.mpr hdue)

/-- Every beat keeps the counter within the threshold. -/
theorem within (h : b.Regular) (hbefore : b.before.skips ≤ b.before.threshold) : b.Within := by
  cases h with
  | unready c forced reported => exact ⟨hbefore, hbefore, hbefore⟩
  | screen c on =>
    cases on with
    | true => exact ⟨hbefore, hbefore, hbefore⟩
    | false => exact ⟨hbefore, hbefore, Nat.le_refl _⟩
  | threshold c threshold => exact ⟨hbefore, hbefore, Nat.min_le_right ..⟩
  | read c forced prepared reported =>
    have hcases := c.ticked_cases (forced || prepared) reported
    refine ⟨hbefore, ?_, ?_⟩
    · rcases hcases with ⟨hnext, -, -, -, hskips⟩ | ⟨hnext, -⟩
      · simp only [inside, hnext]
        exact hskips
      · simp only [inside, hnext]
        exact hbefore
    · rcases hcases with ⟨-, hticked, -, -, hskips⟩ | ⟨-, -, ⟨-, -, hticked⟩ | ⟨-, hticked⟩⟩
      · simp only [hticked]
        exact hskips
      · simp only [hticked]
        exact Nat.zero_le _
      · simp only [hticked]
        exact hbefore

theorem raises (h : b.Regular) : b.Raises := by
  cases h with
  | unready c forced reported => exact ⟨nofun, fun hlt => absurd hlt (Nat.lt_irrefl _)⟩
  | screen c on =>
    cases on with
    | true => exact ⟨nofun, fun hlt => absurd hlt (Nat.lt_irrefl _)⟩
    | false => exact ⟨nofun, fun _ => .inr ⟨rfl, rfl⟩⟩
  | threshold c threshold =>
    exact ⟨nofun, fun hlt => absurd hlt (Nat.not_lt.mpr (Nat.min_le_left ..))⟩
  | read c forced prepared reported =>
    rcases c.ticked_cases (forced || prepared) reported with
      ⟨hnext, hticked, -⟩ | ⟨hnext, -, ⟨-, -, hticked⟩ | ⟨-, hticked⟩⟩
    · exact ⟨fun _ => by simp [hticked], fun _ => .inl (by simp [read?, hnext])⟩
    · exact ⟨by simp [read?, hnext], by simp [hticked]⟩
    · exact ⟨by simp [read?, hnext], by simp [hticked]⟩

theorem lowers (h : b.Regular) (hbefore : b.before.skips ≤ b.before.threshold) : b.Lowers := by
  intro hlt
  cases h with
  | unready c forced reported => exact absurd hlt (Nat.lt_irrefl _)
  | screen c on =>
    cases on with
    | true => exact absurd hlt (Nat.lt_irrefl _)
    | false => exact absurd hbefore (Nat.not_le.mpr hlt)
  | threshold c threshold =>
    simp only [Cadence.setThreshold] at hlt hbefore ⊢
    exact .inl ⟨trivial, by omega, by omega⟩
  | read c forced prepared reported =>
    rcases c.ticked_cases (forced || prepared) reported with
      ⟨-, hticked, -⟩ | ⟨hnext, -, ⟨hreported, hscreen, hticked⟩ | ⟨-, hticked⟩⟩
    · simp only [hticked] at hlt
      omega
    · refine .inr ⟨by rw [hticked], hscreen, forced, prepared, ?_⟩
      rw [hnext, hreported]
    · simp [hticked] at hlt

/-- A full read with the screen off starts the count anew once its report went through. -/
theorem resets {forced prepared : Bool} (h : b.Regular)
    (hfull : b.move = .tick forced prepared true (some .full))
    (hscreen : b.before.screenOn = false) : b.after = { b.before with skips := 0 } := by
  cases h with
  | unready => cases hfull
  | screen => cases hfull
  | threshold => cases hfull
  | read c forced' prepared' reported' =>
    obtain ⟨-, -, hreported, hkind⟩ : forced' = forced ∧ prepared' = prepared ∧
        reported' = true ∧ (c.next (forced' || prepared')).1 = .full := by simpa using hfull
    rcases c.ticked_cases (forced' || prepared') reported' with
      ⟨hnext, -⟩ | ⟨-, -, ⟨-, -, hticked⟩ | ⟨hfailed | hon, -⟩⟩
    · rw [hnext] at hkind
      cases hkind
    · exact hticked
    · exact absurd (hfailed.symm.trans hreported) Bool.false_ne_true
    · exact absurd (hscreen.symm.trans hon) Bool.false_ne_true

theorem inside_threshold (h : b.Regular) : b.inside.threshold = b.before.threshold := by
  cases h with
  | unready c forced reported => rfl
  | screen c on => rfl
  | threshold c threshold => rfl
  | read c forced prepared reported =>
    rcases c.next_cases (forced || prepared) with ⟨hnext, -⟩ | ⟨hnext, -⟩
    · simp only [inside, hnext]
    · simp only [inside, hnext]

/-- With the screen off and a steady threshold, a beat that asks for no full read leaves the cadence
alone, or it is a minimal read below the threshold or a full one at it. -/
theorem unhurried (h : b.Regular) (hbefore : b.before.skips ≤ b.before.threshold)
    (hscreen : b.before.screenOn = false) (hsteady : b.after.threshold = b.before.threshold)
    (hunhurried : b.Unhurried) :
    (b.read? = none ∧ b.after = b.before) ∨
      (b.read? = some .minimal ∧ b.before.skips < b.before.threshold ∧
        b.after = { b.before with skips := b.before.skips + 1 }) ∨
      (b.read? = some .full ∧ b.before.skips = b.before.threshold) := by
  obtain ⟨hswitch, htick⟩ := hunhurried
  cases h with
  | unready c forced reported => exact absurd (htick _ _ _ _ rfl).2 nofun
  | screen c on => exact absurd rfl (hswitch on)
  | threshold c n =>
    obtain ⟨screenOn, skips, threshold⟩ := c
    obtain rfl : n = threshold := hsteady
    have hkept : min skips n = skips := Nat.min_eq_left hbefore
    exact .inl ⟨rfl, by simp [Cadence.setThreshold, hkept]⟩
  | read c forced prepared reported =>
    obtain ⟨rfl, rfl⟩ := htick _ _ _ _ rfl
    rcases c.ticked_cases false reported with ⟨hnext, hticked, -, -, hskips⟩ | ⟨hnext, hdue, -⟩
    · exact .inr (.inl ⟨by simp [read?, hnext], hskips, hticked⟩)
    · refine .inr (.inr ⟨by simp [read?, hnext], ?_⟩)
      rcases hdue with hforced | hon | hdue
      · cases hforced
      · exact absurd (hscreen.symm.trans hon) Bool.false_ne_true
      · exact Nat.le_antisymm hbefore hdue

end Regular

end Beat

/-! ### Stretches of beats -/

/-- The reads of ticks that came to one, in order. -/
def readsOf (beats : List Beat) : List ReadKind := beats.filterMap Beat.read?

/-- The threshold stays the same over a stretch of beats. -/
def Steady (threshold : Nat) (stretch : List Beat) : Prop :=
  ∀ b ∈ stretch, b.before.threshold = threshold ∧ b.after.threshold = threshold

namespace Cadence.Keeps

variable {c c' : Cadence} {beats stretch : List Beat} {threshold : Nat}

/-- The counter is within the threshold throughout. -/
theorem within (h : Keeps c beats c') (hc : c.skips ≤ c.threshold) :
    (∀ b ∈ beats, b.Within) ∧ c'.skips ≤ c'.threshold := by
  induction h with
  | nil c => exact ⟨nofun, hc⟩
  | cons regular rest ih =>
    have hwithin := regular.within hc
    obtain ⟨hrest, hend⟩ := ih hwithin.after
    exact ⟨List.forall_mem_cons.mpr ⟨hwithin, hrest⟩, hend⟩

/-- The threshold is never over a bound on all that it is set to. -/
theorem threshold_le {bound : Nat} (h : Keeps c beats c') (hc : c.threshold ≤ bound)
    (hset : ∀ n, .threshold n ∈ beats.map Beat.move → n ≤ bound) :
    ∀ b ∈ beats, b.before.threshold ≤ bound ∧ b.inside.threshold ≤ bound ∧
      b.after.threshold ≤ bound := by
  induction h with
  | nil c => exact nofun
  | @cons b beats c' regular rest ih =>
    have hb : b.after.threshold ≤ bound := by
      rw [regular.sets.threshold]
      unfold Beat.threshold?
      split
      · rename_i threshold hmove
        exact hset threshold (by simp [← hmove])
      · exact hc
    have hrest := ih hb fun n hn => hset n (List.mem_cons_of_mem _ hn)
    exact List.forall_mem_cons.mpr ⟨⟨hc, by rw [regular.inside_threshold]; exact hc, hb⟩, hrest⟩

/-- While the threshold stays and no read is full, every read counts. -/
theorem skips_add_length_le (h : Keeps c stretch c') (hc : c.skips ≤ c.threshold)
    (hsteady : Steady threshold stretch) (hminimal : ReadKind.full ∉ readsOf stretch) :
    c.skips + (readsOf stretch).length ≤ c'.skips := by
  induction h with
  | nil c => exact Nat.le_refl _
  | @cons b beats c' regular rest ih =>
    obtain ⟨⟨hbefore, hafter⟩, hsteady⟩ := List.forall_mem_cons.mp hsteady
    have hcons : readsOf (b :: beats) = b.read?.toList ++ readsOf beats := by
      cases hread : b.read? <;> simp [readsOf, hread]
    rw [hcons, List.mem_append, not_or] at hminimal
    have hrest := ih (regular.within hc).after hsteady hminimal.2
    have hkept : b.before.skips + b.read?.toList.length ≤ b.after.skips := by
      cases hread : b.read? with
      | some kind =>
        cases kind with
        | minimal => simp [regular.raises.counted hread]
        | full => simp [hread] at hminimal
      | none =>
        simp only [Option.toList_none, List.length_nil, Nat.add_zero]
        by_contra hlt
        rcases regular.lowers hc (Nat.not_le.mp hlt) with ⟨-, hlower, -⟩ | ⟨-, -, _, _, hmove⟩
        · omega
        · simp [Beat.read?, hmove] at hread
    rw [hcons, List.length_append]
    omega

/-- While nothing asks for a full read, as many minimal ones come as the counter lacks to the
threshold, and then a full one. -/
theorem paced (h : Keeps c stretch c') (hc : c.skips ≤ threshold)
    (hthreshold : c.threshold = threshold) (hscreen : c.screenOn = false)
    (hsteady : Steady threshold stretch) (hunhurried : ∀ b ∈ stretch, b.Unhurried) :
    (readsOf stretch).take (threshold - c.skips + 1) <+:
      List.replicate (threshold - c.skips) .minimal ++ [.full] := by
  induction h with
  | nil c => exact List.nil_prefix
  | @cons b beats c' regular rest ih =>
    obtain ⟨⟨hbefore, hafter⟩, hsteady⟩ := List.forall_mem_cons.mp hsteady
    obtain ⟨hcalm, hunhurried⟩ := List.forall_mem_cons.mp hunhurried
    subst hthreshold
    rcases regular.unhurried hc hscreen hafter hcalm with
      ⟨hread, hsame⟩ | ⟨hread, hskips, hcounted⟩ | ⟨hread, hskips⟩
    · have hreads : readsOf (b :: beats) = readsOf beats := by simp [readsOf, hread]
      rw [hsame] at ih
      rw [hreads]
      exact ih hc rfl hscreen hsteady hunhurried
    · have hreads : readsOf (b :: beats) = .minimal :: readsOf beats := by simp [readsOf, hread]
      have hlacking : b.before.threshold - b.before.skips
          = b.before.threshold - (b.before.skips + 1) + 1 := by omega
      rw [hcounted] at ih
      have htail := ih hskips rfl hscreen hsteady hunhurried
      rw [hreads, hlacking, List.replicate_succ, List.take_succ_cons, List.cons_append]
      exact List.prefix_cons_inj _ |>.mpr htail
    · have hreads : readsOf (b :: beats) = .full :: readsOf beats := by simp [readsOf, hread]
      have hlacking : b.before.threshold - b.before.skips = 0 := by omega
      rw [hreads, hlacking]
      exact List.prefix_rfl

theorem threshold_of_steady (h : Keeps c stretch c') (hc : c.threshold = threshold)
    (hsteady : Steady threshold stretch) : c'.threshold = threshold := by
  induction h with
  | nil c => exact hc
  | cons regular rest ih =>
    obtain ⟨⟨-, hafter⟩, hrest⟩ := List.forall_mem_cons.mp hsteady
    exact ih hafter hrest

/-- A stretch of beats begins within the threshold, too. -/
theorem part (h : Keeps c beats c') (hc : c.skips ≤ c.threshold) (hpart : stretch <:+: beats) :
    ∃ first last : Cadence, Keeps first stretch last ∧ first.skips ≤ first.threshold := by
  obtain ⟨before, after, rfl⟩ := hpart
  obtain ⟨last, hkept, -⟩ := h.split
  obtain ⟨first, hbefore, hstretch⟩ := hkept.split
  exact ⟨first, last, hstretch, (hbefore.within hc).2⟩

/-- As many ticks as the threshold, and one more, come to a full read. -/
theorem fed (h : Keeps c stretch c') (hc : c.skips ≤ c.threshold)
    (hsteady : Steady threshold stretch)
    (hmany : threshold < (readsOf stretch).length) : ReadKind.full ∈ readsOf stretch := by
  by_contra hminimal
  cases stretch with
  | nil => exact absurd hmany (Nat.not_lt_zero _)
  | cons b rest =>
    have hfirst : c.threshold = threshold := by
      cases h with
      | cons regular rest => exact (hsteady _ List.mem_cons_self).1
    have hlast : c'.threshold = threshold := h.threshold_of_steady hfirst hsteady
    have hend : c'.skips ≤ c'.threshold := (h.within hc).2
    have hcount := h.skips_add_length_le hc hsteady hminimal
    omega

/-- After a full read whose report went through, exactly as many minimal ones as the threshold come
before the next full one. -/
theorem paced_of_full {b : Beat} {forced prepared : Bool} (h : Keeps c (b :: stretch) c')
    (hfull : b.move = .tick forced prepared true (some .full))
    (hscreen : b.before.screenOn = false) (hsteady : Steady threshold (b :: stretch))
    (hunhurried : ∀ b ∈ stretch, b.Unhurried) :
    (readsOf stretch).take (threshold + 1) <+: List.replicate threshold .minimal ++ [.full] := by
  obtain ⟨⟨-, hafter⟩, hrest⟩ := List.forall_mem_cons.mp hsteady
  cases h with
  | cons regular rest =>
    have hreset : b.after.skips = 0 ∧ b.after.screenOn = false := by
      rw [regular.resets hfull hscreen]
      exact ⟨rfl, hscreen⟩
    have hnone : b.after.skips ≤ threshold := hreset.1.trans_le (Nat.zero_le _)
    have hpaced := rest.paced hnone hafter hreset.2 hrest hunhurried
    rw [hreset.1] at hpaced
    exact hpaced

end Cadence.Keeps

/-! ### Sampling over a run -/

/-- How a worker is sampled over some beats, from a first threshold to a last cadence. -/
structure Sampling (first : Nat) (beats : List Beat) (last : Cadence) : Prop where
  within : ∀ b ∈ beats, b.Within
  ends : last.skips ≤ last.threshold
  /-- The counter fits where every threshold fits. -/
  bounded : ∀ bound, first ≤ bound → (∀ n, .threshold n ∈ beats.map Beat.move → n ≤ bound) →
    ∀ b ∈ beats, b.before.skips ≤ bound ∧ b.inside.skips ≤ bound ∧ b.after.skips ≤ bound
  set : ∀ b ∈ beats, b.Sets
  sampled : ∀ b ∈ beats, b.Sampled
  raised : ∀ b ∈ beats, b.Raises
  lowered : ∀ b ∈ beats, b.Lowers
  fed : ∀ stretch threshold, stretch <:+: beats → Steady threshold stretch →
    threshold < (readsOf stretch).length → .full ∈ readsOf stretch
  paced : ∀ b stretch threshold forced prepared, (b :: stretch) <:+: beats →
    b.move = .tick forced prepared true (some .full) → b.before.screenOn = false →
    Steady threshold (b :: stretch) → (∀ b ∈ stretch, b.Unhurried) →
    (readsOf stretch).take (threshold + 1) <+: List.replicate threshold .minimal ++ [.full]

theorem Cadence.Keeps.sampling {c c' : Cadence} {beats : List Beat} (h : c.Keeps beats c')
    (hc : c.skips ≤ c.threshold) : Sampling c.threshold beats c' where
  within := (h.within hc).1
  ends := (h.within hc).2
  bounded := by
    intro bound hfirst hset b hb
    have hwithin := (h.within hc).1 b hb
    obtain ⟨hbefore, hinside, hafter⟩ := h.threshold_le hfirst hset b hb
    exact ⟨hwithin.before.trans hbefore, hwithin.inside.trans hinside, hwithin.after.trans hafter⟩
  set b hb := (h.regular b hb).sets
  sampled b hb := (h.regular b hb).sampled
  raised b hb := (h.regular b hb).raises
  lowered b hb := (h.regular b hb).lowers ((h.within hc).1 b hb).before
  fed := by
    intro stretch threshold hpart hsteady hmany
    obtain ⟨first, last, hstretch, hfirst⟩ := h.part hc hpart
    exact hstretch.fed hfirst hsteady hmany
  paced := by
    intro b stretch threshold forced prepared hpart hfull hscreen hsteady hunhurried
    obtain ⟨first, last, hstretch, -⟩ := h.part hc hpart
    exact hstretch.paced_of_full hfull hscreen hsteady hunhurried

/-- Whatever wakes a session, and whatever its conversations come to, the worker is sampled as the
threshold says. -/
theorem cadence_sampled {config : Config} {platform : Platform} {host : HostIdentity}
    {displayOn : Bool} {now : Nat} {beats : List Beat} {s : Session}
    (run : (Session.start (.ofConfig config platform host displayOn) now).Paces beats s) :
    Sampling config.polling.skipThreshold beats s.poller.cadence :=
  run.keeps.sampling (Nat.zero_le _)

/-- The screen goes off, and the first tick reads in full. -/
theorem cadence_sampled_screen_off :
    ∃ beats s, (Session.start (.ofConfig {} .arm64 ⟨"", ""⟩ true) 0).Paces beats s ∧
      beats.map Beat.move = [.screen false, .tick false true true (some .full)] ∧
      Sampling 10 beats s.poller.cadence := by
  let start := Session.start (.ofConfig {} .arm64 ⟨"", ""⟩ true) 0
  obtain ⟨off, hoff⟩ : ∃ s, start.handle 0 (.command (.displayChanged false)) = some (.done s) :=
    ⟨_, rfl⟩
  obtain ⟨action, htick⟩ : ∃ action, off.handle 0 .tick = some action := ⟨_, rfl⟩
  have hfollows := follows_converse (fun _ => Effect.plain) [] action
  have hmoves : (start.beats (.command (.displayChanged false)) [] off ++
      off.beats .tick (action.converse (fun _ => Effect.plain) []).1
        (action.converse (fun _ => Effect.plain) []).2).map Beat.move =
      [.screen false, .tick false true true (some .full)] := by
    cases hoff
    cases htick
    decide +kernel
  generalize action.converse (fun _ => Effect.plain) [] = run at hfollows hmoves
  have hrun := (Session.Paces.start.wake hoff (.done off)).wake htick hfollows
  exact ⟨_, _, hrun, hmoves, cadence_sampled hrun⟩

end Overseer
