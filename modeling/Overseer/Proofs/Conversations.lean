import Overseer.Program

/-!
Reasoning about conversations.

`Ensures p post` says that every conversation of a program, with its result, satisfies a
postcondition, whatever the surroundings answer. The rules follow the constructors of a program:
`Ensures.done` and `Ensures.ask`, and `Ensures.bind` for sequences, where the second part is proved
from what the first one ensures. A program has a conversation in all surroundings
(`follows_converse`), so nothing that is ensured is ensured of nothing.
-/

namespace Overseer.Program

variable {I : Interface} {α β : Type}

/-- Every conversation of the program, with its result, satisfies the postcondition. -/
def Ensures (p : Program I α) (post : List (Exchange I) → α → Prop) : Prop :=
  ∀ ⦃trace a⦄, Follows p trace a → post trace a

namespace Ensures

variable {p : Program I α} {f : α → Program I β} {post post' : List (Exchange I) → α → Prop}

theorem done {a : α} (h : post [] a) : Ensures (.done a : Program I α) post := by
  intro trace b hfollows
  cases hfollows
  exact h

theorem ask {op : I.Op} {next : I.Answer op → Program I α}
    (h : ∀ answer, Ensures (next answer) fun trace a => post (⟨op, answer⟩ :: trace) a) :
    Ensures (.ask op next) post := by
  intro trace a hfollows
  cases hfollows with
  | ask answer rest => exact h answer rest

/-- A question, and what the program does with its answer. -/
theorem question {op : I.Op} {f : I.Answer op → Program I β} {goal : List (Exchange I) → β → Prop}
    (h : ∀ answer, Ensures (f answer) fun trace b => goal (⟨op, answer⟩ :: trace) b) :
    Ensures (call op >>= f) goal :=
  ask h

theorem bind {goal : List (Exchange I) → β → Prop} (hp : Ensures p post)
    (hf : ∀ first a, post first a →
      Ensures (f a) fun second b => goal (first ++ second) b) :
    Ensures (p >>= f) goal := by
  intro trace b hfollows
  obtain ⟨first, second, a, rfl, hfirst, hsecond⟩ := follows_bind_iff.mp hfollows
  exact hf first a (hp hfirst) hsecond

/-- All that is ensured of a program. -/
theorem self (p : Program I α) : Ensures p (Follows p) :=
  fun _ _ hfollows => hfollows

theorem mono (hp : Ensures p post) (h : ∀ trace a, post trace a → post' trace a) :
    Ensures p post' :=
  fun trace a hfollows => h trace a (hp hfollows)

theorem and (hp : Ensures p post) (hp' : Ensures p post') :
    Ensures p fun trace a => post trace a ∧ post' trace a :=
  fun _ _ hfollows => ⟨hp hfollows, hp' hfollows⟩

end Ensures

/-! ### What is asked at all -/

/-- Whatever is answered, only such questions are asked. -/
def Asks (allowed : I.Op → Prop) (p : Program I α) : Prop :=
  Ensures p fun trace _ => ∀ e ∈ trace, allowed e.op

namespace Asks

variable {allowed : I.Op → Prop} {p : Program I α} {f : α → Program I β}

theorem done (a : α) : Asks allowed (.done a : Program I α) :=
  Ensures.done (by simp)

theorem ask {op : I.Op} {next : I.Answer op → Program I α} (hop : allowed op)
    (h : ∀ answer, Asks allowed (next answer)) : Asks allowed (.ask op next) := by
  refine Ensures.ask fun answer => (h answer).mono fun trace _ htrace => ?_
  exact List.forall_mem_cons.mpr ⟨hop, htrace⟩

theorem question {op : I.Op} {f : I.Answer op → Program I β} (hop : allowed op)
    (h : ∀ answer, Asks allowed (f answer)) : Asks allowed (call op >>= f) :=
  ask hop h

theorem mono {allowed' : I.Op → Prop} (hp : Asks allowed p)
    (h : ∀ op, allowed op → allowed' op) : Asks allowed' p :=
  Ensures.mono hp fun _ _ htrace e he => h e.op (htrace e he)

theorem bind (hp : Asks allowed p) (hf : ∀ a, Asks allowed (f a)) : Asks allowed (p >>= f) := by
  refine Ensures.bind hp fun first a hfirst => Ensures.mono (hf a) fun second _ hsecond => ?_
  exact List.forall_mem_append.mpr ⟨hfirst, hsecond⟩

/-- A program carried out question by question asks what its answers are made of. -/
theorem interpret {J : Interface} {p : Program J α}
    {answer : (op : J.Op) → Program I (J.Answer op)} (h : ∀ op, Asks allowed (answer op)) :
    Asks allowed (p.interpret answer) := by
  induction p with
  | done a => exact done a
  | ask op next ih => exact bind (h op) ih

end Asks

/-! ### Surroundings -/

/-- An answer to every question, given the conversation so far. -/
@[reducible] def Surroundings (I : Interface) : Type :=
  List (Exchange I) → (op : I.Op) → I.Answer op

/-- The conversation that a program has in some surroundings from some point on, and its result. -/
def converse (around : Surroundings I) : List (Exchange I) → Program I α → List (Exchange I) × α
  | _, .done a => ([], a)
  | past, .ask op next =>
    let exchange : Exchange I := ⟨op, around past op⟩
    let (trace, a) := converse around (past ++ [exchange]) (next exchange.answer)
    (exchange :: trace, a)

theorem follows_converse (around : Surroundings I) (past : List (Exchange I)) (p : Program I α) :
    Follows p (p.converse around past).1 (p.converse around past).2 := by
  induction p generalizing past with
  | done a => exact .done a
  | ask op next ih => exact .ask _ (ih _ _)

/-- Surroundings that always give the same answer to a question give it every time. -/
theorem answer_of_mem_converse {answer : (op : I.Op) → I.Answer op} {past : List (Exchange I)}
    {p : Program I α} {e : Exchange I} (h : e ∈ (p.converse (fun _ => answer) past).1) :
    e.answer = answer e.op := by
  induction p generalizing past with
  | done a => cases h
  | ask op next ih =>
    rcases List.mem_cons.mp h with rfl | hrest
    · rfl
    · exact ih _ hrest

/-- What a program asks at first is among what it asks, -/
theorem Asks.first {allowed : I.Op → Prop} {op : I.Op} {next : I.Answer op → Program I α}
    (around : Surroundings I) (h : Asks allowed (.ask op next)) : allowed op :=
  h (follows_converse around [] (.ask op next)) _ List.mem_cons_self

/-- and so is what it asks after an answer. -/
theorem Asks.later {allowed : I.Op → Prop} {op : I.Op} {next : I.Answer op → Program I α}
    (h : Asks allowed (.ask op next)) (answer : I.Answer op) : Asks allowed (next answer) :=
  fun _ _ hfollows e he => h (.ask answer hfollows) e (List.mem_cons_of_mem _ he)

theorem Ensures.later {post : List (Exchange I) → α → Prop} {op : I.Op}
    {next : I.Answer op → Program I α} (h : Ensures (.ask op next) post) (answer : I.Answer op) :
    Ensures (next answer) fun trace a => post (⟨op, answer⟩ :: trace) a :=
  fun _ _ hfollows => h (.ask answer hfollows)

/-- A program carried out question by question asks what answers its own questions. -/
theorem Asks.interpret_of {J : Interface} {asked : J.Op → Prop} {allowed : I.Op → Prop}
    (around : Surroundings J) {p : Program J α} {answer : (op : J.Op) → Program I (J.Answer op)}
    (hp : Asks asked p) (h : ∀ op, asked op → Asks allowed (answer op)) :
    Asks allowed (p.interpret answer) := by
  induction p with
  | done a => exact Asks.done a
  | ask op next ih =>
    exact Asks.bind (h op (hp.first around)) fun reply => ih reply (hp.later reply)

theorem Ensures.converse {p : Program I α} {post : List (Exchange I) → α → Prop}
    (h : Ensures p post) (around : Surroundings I) :
    post (p.converse around []).1 (p.converse around []).2 :=
  h (follows_converse around [] p)

end Overseer.Program
