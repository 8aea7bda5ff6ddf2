import Overseer.Proofs.Preparing.Phases

/-!
What an attempt to set up posts.

Only its beginning, its preferences and its end are posted (`SetupPlan.run_posts`); stopping,
installing, launching and connecting post nothing, however they go.
-/

namespace Overseer

open Program

theorem posts_eq_nil {trace : List (Exchange Effects)}
    (h : ∀ e ∈ trace, ∀ change, e.op ≠ .post change) : posts trace = [] := by
  refine List.filterMap_eq_nil_iff.mpr fun ⟨op, answer⟩ he => ?_
  cases op with
  | post change => exact absurd rfl (h _ he change)
  | _ => rfl

theorem Effect.Stops.ne_post {effect : Effect} (h : effect.Stops) (change : StatusChange) :
    effect ≠ .post change := by
  rintro rfl
  exact h

theorem Effect.Outside.ne_post {effect : Effect} (h : effect.Outside) (change : StatusChange) :
    effect ≠ .post change := by
  rintro rfl
  exact h

namespace Connection

theorem Tried.posts_eq_nil {c : Connection} {trace : List (Exchange Effects)} {connected : Bool}
    (h : c.Tried trace connected) : posts trace = [] :=
  Overseer.posts_eq_nil fun e he => (h.stops e he).ne_post

theorem posts_retrying {c : Connection} {tries : List (List (Exchange Effects) × Bool)}
    (delay : Nat) (h : ∀ t ∈ tries, c.Tried t.1 t.2) : posts (retrying delay tries) = [] := by
  induction tries with
  | nil => rfl
  | cons t rest ih =>
    obtain ⟨ht, hrest⟩ := List.forall_mem_cons.mp h
    by_cases hnil : rest = []
    · subst hnil
      simpa [retrying] using ht.posts_eq_nil
    · rw [retrying_cons delay t hnil, posts_append, posts_append, ht.posts_eq_nil, ih hrest]
      rfl

end Connection

/-- Stopping and installing the worker, looking for it and connecting to it post nothing. -/
theorem Phases.Proceeds.posts_work {phases : Phases} {plan : SetupPlan} {a : Attempt} {ok : Bool}
    (h : phases.Proceeds plan a ok) :
    posts (phases.work plan) = posts (plan.introducing phases.introduced phases.preferences) := by
  have hcompare : posts phases.compare = [] := by
    refine posts_eq_nil fun e he change => ?_
    obtain ⟨path, hop⟩ := h.prepared.readsOnly e he
    simp [hop]
  have hreplaced : posts phases.stop = [] ∧ posts phases.install = [] := by
    rcases h.prepared.kept_or_replaced with ⟨-, -, hstop, hinstall, -⟩ | ⟨⟨_, hstop⟩, hinstall⟩
    · rw [hstop, hinstall]
      exact ⟨rfl, rfl⟩
    · exact ⟨posts_eq_nil fun e he => (hstop.stops e he).ne_post,
        posts_eq_nil fun e he => (outside_files _ hinstall e he).ne_post⟩
  have hstarting : posts (plan.starting phases.looked phases.launched) = [] := by
    cases phases.looked <;> cases phases.launched <;> rfl
  have hretrying :
      posts (Connection.retrying plan.retry.connectDelayMs phases.tries) = [] := by
    by_cases hnil : phases.tries = []
    · rw [hnil]
      rfl
    · obtain ⟨connected, hretries⟩ := h.retries hnil
      exact Connection.posts_retrying _ hretries.tried
  simp only [Phases.work, posts_append, hcompare, hreplaced, hstarting, hretrying, List.nil_append]

/-- The setup status that records the outcome of an attempt. -/
def SetupStatus.ofOutcome (ok : Bool) : SetupStatus := if ok then .available else .error

/-- An attempt posts that it begins, the preferences if it gets them, and its outcome. -/
theorem SetupPlan.run_posts (plan : SetupPlan) (a : Attempt) :
    Ensures (plan.run a) fun trace (ok, _) =>
      ∃ read : Option Preferences, (read.isSome ↔ ok = true) ∧
        posts trace = [.setup .launching] ++ read.toList.map .preferences ++
          [.setup (.ofOutcome ok)] := by
  refine (plan.run_ensures a).mono ?_
  rintro trace ⟨ok, a'⟩ ⟨-, -, phases, rfl, hproceeds⟩
  have hposts : posts (phases.trace plan ok) =
      [.setup .launching] ++ posts (plan.introducing phases.introduced phases.preferences) ++
        [.setup (.ofOutcome ok)] := by
    rw [Phases.trace, posts_append, posts_append, hproceeds.posts_work]
    rfl
  rw [hposts]
  by_cases hread : ∃ p, phases.preferences = some (.ok p)
  · obtain ⟨p, hp⟩ := hread
    refine ⟨some p, by simp [hproceeds.ok_iff, hp], ?_⟩
    rw [hp]
    cases phases.introduced <;> rfl
  · refine ⟨none, by simp [hproceeds.ok_iff, hread], ?_⟩
    rcases hp : phases.preferences with - | (e | p)
    · rfl
    · rfl
    · exact absurd ⟨p, hp⟩ hread

end Overseer
