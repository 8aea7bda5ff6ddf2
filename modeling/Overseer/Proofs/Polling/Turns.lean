import Overseer.Proofs.Polling.Ticks

/-!
A run of a session, turn by turn.

A turn is one wake of the session: the session before it, what was exchanged in it, and the session
after it. `Turns` is a run that keeps its turns apart; without them it is a run as before
(`Turns.runs`, `Runs.exists_turns`). `play` gives the turns of a session in given surroundings.
-/

namespace Overseer

open Program

/-- One wake of a session. -/
structure Turn where
  before : Session
  trace : List (Exchange Effects)
  after : Session

namespace Session

/-- The states of a session after so many turns. -/
inductive Turns (s : Session) : List Turn → Session → Prop where
  | start : Turns s [] s
  | turn {turns s' s'' now wake action trace} (run : Turns s turns s')
      (handled : s'.handle now wake = some action) (followed : Follows action trace s'') :
      Turns s (turns ++ [⟨s', trace, s''⟩]) s''

variable {s s' : Session}

theorem Turns.runs {turns : List Turn} (h : s.Turns turns s') :
    s.Runs (turns.flatMap Turn.trace) s' := by
  induction h with
  | start => exact .start
  | turn run handled followed ih =>
    rw [List.flatMap_append, List.flatMap_singleton]
    exact .wake ih handled followed

theorem Runs.exists_turns {trace : List (Exchange Effects)} (h : s.Runs trace s') :
    ∃ turns, trace = turns.flatMap Turn.trace ∧ s.Turns turns s' := by
  induction h with
  | start => exact ⟨[], rfl, .start⟩
  | @wake s₁ s₂ past more now wake action run handled followed ih =>
    obtain ⟨turns, rfl, hturns⟩ := ih
    exact ⟨turns ++ [⟨s₁, more, s₂⟩], by simp, .turn hturns handled followed⟩

/-- What every turn preserves holds after a run. -/
theorem Turns.invariant {turns : List Turn} (run : s.Turns turns s')
    (inv : List Turn → Session → Prop) (start : inv [] s)
    (step : ∀ {past t}, inv past t.before → t.before.Woken t.trace t.after →
      inv (past ++ [t]) t.after) : inv turns s' := by
  induction run with
  | start => exact start
  | turn run handled followed ih => exact step ih (handle_ensures handled followed)

theorem Turns.trans {s'' : Session} {first second : List Turn} (h : s.Turns first s')
    (h' : s'.Turns second s'') : s.Turns (first ++ second) s'' := by
  induction h' with
  | start => rwa [List.append_nil]
  | turn run handled followed ih =>
    rw [← List.append_assoc]
    exact .turn ih handled followed

/-- The turns of a session with these wakes, each with its wake, and the session after them. The
surroundings always give the same answer to a question. -/
def play (answer : (effect : Effect) → effect.Answer) (s : Session) :
    List Wake → List (Wake × Turn) × Session
  | [] => ([], s)
  | wake :: rest =>
    match s.handle 0 wake with
    | none => ([], s)
    | some action =>
      let (trace, s') := action.converse (fun _ => answer) []
      let (turns, last) := play answer s' rest
      ((wake, ⟨s, trace, s'⟩) :: turns, last)

variable {answer : (effect : Effect) → effect.Answer}

theorem turns_play (s : Session) (wakes : List Wake) :
    s.Turns ((s.play answer wakes).1.map Prod.snd) (s.play answer wakes).2 := by
  induction wakes generalizing s with
  | nil => exact .start
  | cons wake rest ih =>
    unfold play
    cases hhandle : s.handle 0 wake with
    | none => exact .start
    | some action =>
      have hturn := Turns.turn .start hhandle (follows_converse (fun _ => answer) [] action)
      exact hturn.trans (ih _)

/-- The surroundings answered as they always do. -/
theorem answer_of_mem_play {s : Session} {wakes : List Wake} {t : Turn} {e : Exchange Effects}
    (ht : t ∈ (s.play answer wakes).1.map Prod.snd) (he : e ∈ t.trace) :
    e.answer = answer e.op := by
  induction wakes generalizing s with
  | nil => cases ht
  | cons wake rest ih =>
    unfold play at ht
    cases hhandle : s.handle 0 wake with
    | none =>
      rw [hhandle] at ht
      cases ht
    | some action =>
      rw [hhandle] at ht
      rcases List.mem_cons.mp ht with rfl | hrest
      · exact answer_of_mem_converse he
      · exact ih hrest

end Session

end Overseer
