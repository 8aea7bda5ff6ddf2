/-!
Programs that ask their surroundings questions.

A supervisor only decides: it reads files, speaks to a worker, signals processes and waits through
requests that something else answers. `Program I α` is a finite tree of such requests over an
interface `I`, ending in an `α`. The same tree is run against a scripted world, translated to a
lower interface, or carried out for real; and `Follows` says which conversations it can have at all,
whatever the surroundings answer.

Main statements: programs form a lawful monad, running a sequence is running its parts
(`interpret_bind`), and a conversation of a sequence splits into conversations of its parts
(`follows_bind_iff`).
-/

namespace Overseer

/-- The questions a program may ask, and the kind of answer each one has. -/
structure Interface where
  Op : Type
  Answer : Op → Type

/-- Both interfaces side by side. -/
def Interface.sum (I J : Interface) : Interface where
  Op := I.Op ⊕ J.Op
  Answer
    | .inl op => I.Answer op
    | .inr op => J.Answer op

/-- Either a result, or a question and what to do with each answer. -/
inductive Program (I : Interface) (α : Type) : Type where
  | done (result : α)
  | ask (op : I.Op) (next : I.Answer op → Program I α)

namespace Program

variable {I J : Interface} {α β γ : Type}

/-- Goes on with the result. -/
protected def bind : Program I α → (α → Program I β) → Program I β
  | .done a, f => f a
  | .ask op next, f => .ask op fun answer => (next answer).bind f

instance : Monad (Program I) where
  pure := .done
  bind := Program.bind

/-- Asks one question and returns its answer. -/
def call (op : I.Op) : Program I (I.Answer op) := .ask op .done

@[simp] theorem pure_eq (a : α) : (pure a : Program I α) = .done a := rfl

@[simp] theorem done_bind (a : α) (f : α → Program I β) : (Program.done a >>= f) = f a := rfl

@[simp] theorem ask_bind (op : I.Op) (next : I.Answer op → Program I α) (f : α → Program I β) :
    (Program.ask op next >>= f) = .ask op fun answer => next answer >>= f := rfl

@[simp] theorem call_bind (op : I.Op) (f : I.Answer op → Program I β) :
    (call op >>= f) = .ask op f := rfl

theorem bind_done (p : Program I α) : (p >>= Program.done) = p := by
  induction p with
  | done a => rfl
  | ask op next ih => simp only [ask_bind, ih]

theorem bind_assoc (p : Program I α) (f : α → Program I β) (g : β → Program I γ) :
    (p >>= f >>= g) = p >>= fun a => f a >>= g := by
  induction p with
  | done a => rfl
  | ask op next ih => simp only [ask_bind, ih]

instance : LawfulMonad (Program I) :=
  LawfulMonad.mk' _ (fun p => bind_done p) (fun _ _ => rfl) (fun p f g => bind_assoc p f g)

/-- Runs a program for each element, in order, and gathers the results. -/
def each (f : α → Program I β) : List α → Program I (List β)
  | [] => .done []
  | a :: rest => do
    let b ← f a
    let bs ← each f rest
    return b :: bs

/-! ### Running -/

/-- Runs a program with a way to answer every question. -/
def interpret {m : Type → Type} [Monad m] (answer : (op : I.Op) → m (I.Answer op)) :
    Program I α → m α
  | .done a => pure a
  | .ask op next => do
    let reply ← answer op
    (next reply).interpret answer

theorem interpret_bind {m : Type → Type} [Monad m] [LawfulMonad m]
    (answer : (op : I.Op) → m (I.Answer op)) (p : Program I α) (f : α → Program I β) :
    (p >>= f).interpret answer = p.interpret answer >>= fun a => (f a).interpret answer := by
  induction p with
  | done a => simp [interpret]
  | ask op next ih => simp [interpret, ih]

/-- Asks the same questions through the left half of a wider interface. -/
def left : Program I α → Program (I.sum J) α
  | .done a => .done a
  | .ask op next => .ask (.inl op) fun answer => (next answer).left

/-! ### Conversations -/

/-- One question with the answer it was given. -/
structure Exchange (I : Interface) where
  op : I.Op
  answer : I.Answer op

/-- `Follows p trace result`: given the answers in `trace`, the program asks exactly the questions
in `trace`, in order, and ends with `result`. -/
inductive Follows : Program I α → List (Exchange I) → α → Prop where
  | done (a : α) : Follows (.done a) [] a
  | ask {op : I.Op} {next : I.Answer op → Program I α} {trace : List (Exchange I)} {a : α}
      (answer : I.Answer op) (rest : Follows (next answer) trace a) :
      Follows (.ask op next) (⟨op, answer⟩ :: trace) a

theorem Follows.bind {p : Program I α} {f : α → Program I β} {first second : List (Exchange I)}
    {a : α} {b : β} (hp : Follows p first a) (hf : Follows (f a) second b) :
    Follows (p >>= f) (first ++ second) b := by
  induction hp with
  | done a => exact hf
  | ask answer _ ih => exact .ask answer (ih hf)

theorem follows_bind_iff {p : Program I α} {f : α → Program I β} {trace : List (Exchange I)}
    {b : β} :
    Follows (p >>= f) trace b ↔
      ∃ first second a, trace = first ++ second ∧ Follows p first a ∧ Follows (f a) second b := by
  constructor
  · induction p generalizing trace with
    | done a => intro h; exact ⟨[], trace, a, rfl, .done a, h⟩
    | ask op next ih =>
      intro h
      cases h with
      | ask answer rest =>
        obtain ⟨first, second, a, rfl, hp, hf⟩ := ih answer rest
        exact ⟨⟨op, answer⟩ :: first, second, a, rfl, .ask answer hp, hf⟩
  · rintro ⟨first, second, a, rfl, hp, hf⟩
    exact hp.bind hf

end Program

end Overseer
