import Mathlib.Data.List.Chain

/-!
Rules on what happens given what happened before.

A rule looks at one entry of a history and at all that came before it; a history keeps the rule if
each of its entries does. Histories grow at their end, so `throughout_concat` is the step lemma of
every invariant of this form.
-/

namespace Overseer

variable {ε : Type} {rule rule' : List ε → ε → Prop} {history more : List ε} {e : ε}

/-- Every entry keeps the rule, given the entries before it. -/
def Throughout (rule : List ε → ε → Prop) (history : List ε) : Prop :=
  ∀ before e after, history = before ++ e :: after → rule before e

theorem throughout_nil : Throughout rule [] := by
  intro before e after h
  simp at h

/-- A history keeps a rule if its two parts do, the second one seen from the start. -/
theorem throughout_append :
    Throughout rule (history ++ more) ↔
      Throughout rule history ∧ Throughout (fun before e => rule (history ++ before) e) more := by
  constructor
  · intro h
    refine ⟨?_, ?_⟩
    · rintro before e after rfl
      exact h before e (after ++ more) (by simp)
    · rintro before e after rfl
      exact h (history ++ before) e after (by simp)
  · rintro ⟨hfirst, hsecond⟩ before e after h
    rcases List.append_eq_append_iff.mp h with ⟨middle, rfl, hmore⟩ | ⟨middle, rfl, hafter⟩
    · exact hsecond middle e after hmore
    · cases middle with
      | nil => simpa using hsecond [] e after (by simpa using hafter.symm)
      | cons first middle =>
        obtain ⟨rfl, rfl⟩ := List.cons.inj hafter
        exact hfirst before e middle rfl

theorem throughout_cons :
    Throughout rule (e :: more) ↔
      rule [] e ∧ Throughout (fun before e' => rule (e :: before) e') more := by
  constructor
  · intro h
    refine ⟨h [] e more rfl, ?_⟩
    rintro before e' after rfl
    exact h (e :: before) e' after rfl
  · rintro ⟨hfirst, hrest⟩ before e' after h
    cases before with
    | nil =>
      obtain ⟨rfl, rfl⟩ := List.cons.inj h
      exact hfirst
    | cons first before =>
      obtain ⟨rfl, rfl⟩ := List.cons.inj h
      exact hrest before e' after rfl

theorem throughout_concat :
    Throughout rule (history ++ [e]) ↔ Throughout rule history ∧ rule history e := by
  rw [throughout_append, throughout_cons]
  simp [throughout_nil]

/-- A rule that looks back only a bounded way can be checked part by part. -/
theorem Throughout.append (far : ∀ before e, rule before e → rule (history ++ before) e)
    (hfirst : Throughout rule history) (hsecond : Throughout rule more) :
    Throughout rule (history ++ more) := by
  refine throughout_append.mpr ⟨hfirst, ?_⟩
  intro before e after h
  exact far before e (hsecond before e after h)

/-- A rule that no entry is subject to is kept. -/
theorem Throughout.of_forall (h : ∀ e ∈ history, ∀ before, rule before e) :
    Throughout rule history := by
  rintro before e after rfl
  exact h e (by simp) before

/-- A chain goes on with what its last value is related to. -/
theorem isChain_concat {r : ε → ε → Prop} {first next : ε} (h : (first :: history).IsChain r)
    (hnext : r (history.getLastD first) next) : (first :: (history ++ [next])).IsChain r := by
  rw [← List.cons_append]
  refine List.isChain_append.mpr ⟨h, List.isChain_singleton next, ?_⟩
  rintro last hlast next' hnext'
  rw [List.getLast?_cons, ← List.getLastD_eq_getLast?, Option.mem_some_iff] at hlast
  obtain rfl : next = next' := by simpa using hnext'
  exact hlast ▸ hnext

end Overseer
