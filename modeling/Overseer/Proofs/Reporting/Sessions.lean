import Overseer.Proofs.Polling.Asked
import Overseer.Proofs.Preparing.Posts
import Overseer.Proofs.Reporting.Observing

/-!
What sessions show on the board.

Only attempts to set up post the setup status, and a session makes them one after the other, with
polls in between. So whatever a session posts, `Observing.Runs` has a run with these changes
(`Session.Runs.observed`), and what holds of all such runs holds of sessions.
-/

namespace Overseer

open Program

namespace Observing

variable {activities : List Activity} {s s' : Observing}

/-- A run goes on with these changes, and their events are sent. -/
def GoesOn (activities : List Activity) (made : List StatusChange)
    (attempt : Option (List StatusChange × Bool)) : Prop :=
  ∃ more s, Runs (activities ++ more) s ∧ changes more = made ∧ s.unsent = [] ∧ s.attempt = attempt

theorem changes_append (first second : List Activity) :
    changes (first ++ second) = changes first ++ changes second :=
  List.filterMap_append ..

theorem untold_eq_nil (sent : s.unsent = []) : s.untold = [] := by
  rw [untold, sent]
  rfl

namespace GoesOn

variable {made : List StatusChange} {attempt attempt' : Option (List StatusChange × Bool)}

theorem here (run : Runs activities s) (sent : s.unsent = []) :
    GoesOn activities [] s.attempt :=
  ⟨[], s, by rwa [List.append_nil], rfl, sent, rfl⟩

theorem trans {made' : List StatusChange} (h : GoesOn activities made attempt)
    (h' : ∀ {activities s}, Runs activities s → s.unsent = [] → s.attempt = attempt →
      GoesOn activities made' attempt') : GoesOn activities (made ++ made') attempt' := by
  obtain ⟨more, s₁, hrun, rfl, hsent, hattempt⟩ := h
  obtain ⟨rest, s₂, hrun', rfl, hsent', hattempt'⟩ := h' hrun hsent hattempt
  refine ⟨more ++ rest, s₂, ?_, changes_append .., hsent', hattempt'⟩
  rw [← List.append_assoc]
  exact hrun'

/-- A step that changes nothing and sends nothing. -/
theorem quiet {activity : Activity} (run : Runs activities s) (step : Step s activity s')
    (unchanged : activity.change? = none) (sent : s'.unsent = []) :
    GoesOn activities [] s'.attempt :=
  ⟨[activity], s', run.step step, by simp [changes, unchanged], sent, rfl⟩

/-- One change, with its event if it has one. -/
theorem one {change : StatusChange} (run : Runs activities s) (sent : s.unsent = [])
    (step : Step s (.altered change) s') (made : s'.unsent = (s.alter change).unsent) :
    GoesOn activities [change] s'.attempt := by
  have hunsent : s'.unsent =
      (change.event? s.board.snapshot).toList.map fun event => (s.made, event) := by
    rw [made, alter, sent, List.nil_append]
  cases hevent : change.event? s.board.snapshot with
  | none =>
    rw [hevent] at hunsent
    exact ⟨[.altered change], s', run.step step, rfl, hunsent, rfl⟩
  | some event =>
    rw [hevent] at hunsent
    have hmem : (s.made, event) ∈ s'.unsent := by
      rw [hunsent]
      exact List.mem_singleton_self _
    have hannounced := (run.step step).step (.announced hmem)
    rw [List.append_assoc] at hannounced
    refine ⟨_, _, hannounced, rfl, ?_, rfl⟩
    change s'.unsent.erase (s.made, event) = []
    simp [hunsent]

/-- Changes of everything but the setup status. -/
theorem others (run : Runs activities s) (sent : s.unsent = []) (made : List StatusChange)
    (h : ∀ change ∈ made, change.setup? = none) : GoesOn activities made s.attempt := by
  induction made generalizing activities s with
  | nil => exact here run sent
  | cons change rest ih =>
    obtain ⟨hchange, hrest⟩ := List.forall_mem_cons.mp h
    refine trans (one run sent (.other hchange) rfl) ?_
    intro activities' s₁ run₁ sent₁ attempt₁
    have hattempt : s₁.attempt = s.attempt := attempt₁
    rw [← hattempt]
    exact ih run₁ sent₁ hrest

/-- The changes of an attempt that is under way. -/
theorem owns {ok : Bool} (run : Runs activities s) (sent : s.unsent = [])
    (made : List StatusChange) (underWay : s.attempt = some (made, ok)) :
    GoesOn activities made (some ([], ok)) := by
  induction made generalizing activities s with
  | nil => exact underWay ▸ here run sent
  | cons change rest ih =>
    refine trans (one run sent (.own underWay (untold_eq_nil sent)) rfl) ?_
    intro activities' s₁ run₁ sent₁ attempt₁
    exact ih run₁ sent₁ attempt₁

/-- A whole attempt. -/
theorem whole {plan : SetupPlan} {a a' : Attempt} {trace : List (Exchange Effects)} {ok : Bool}
    (run : Runs activities s) (sent : s.unsent = []) (idle : s.attempt = none)
    (followed : Follows (plan.run a) trace (ok, a')) :
    GoesOn activities (posts trace) none := by
  have hbegan := quiet run (.began idle followed) rfl sent
  have hmade := hbegan.trans fun run₁ sent₁ attempt₁ => owns run₁ sent₁ _ attempt₁
  have hended : GoesOn activities ([] ++ posts trace ++ []) none := by
    refine hmade.trans ?_
    intro activities' s₁ run₁ sent₁ complete
    have hstep := Step.ended complete (untold_eq_nil sent₁)
    exact quiet run₁ hstep rfl sent₁
  rwa [List.nil_append, List.append_nil] at hended

end GoesOn

end Observing

/-! ### Sessions -/

theorem posts_looks {trace : List (Exchange Effects)} (h : Poller.Looks trace) :
    posts trace = [] := by
  refine posts_eq_nil fun e he change => ?_
  rw [h e he]
  exact nofun

/-- A poll posts nothing about setting up. -/
theorem setup?_posts_of_polls {trace : List (Exchange Effects)}
    (h : ∀ e ∈ trace, e.op.Polls) : ∀ change ∈ posts trace, change.setup? = none := by
  intro change hchange
  obtain ⟨⟨op, answer⟩, he, heq⟩ := List.mem_filterMap.mp hchange
  have hop := h _ he
  cases op with
  | post posted =>
    obtain rfl : posted = change := by simpa using heq
    cases posted with
    | setup status => exact hop.elim
    | _ => rfl
  | _ => cases heq

theorem Poller.Reports.posts_eq_nil {trace : List (Exchange Effects)} (h : Poller.Reports trace) :
    posts trace = [] := by
  obtain ⟨power, status, reported, rfl⟩ := h
  rfl

namespace Observing

variable {activities : List Activity} {s : Observing}

/-- Setting a poller up is an attempt. -/
theorem goesOn_setUp {p p' : Poller} {trace : List (Exchange Effects)} {ok : Bool}
    (followed : Follows p.setUp trace (ok, p')) (run : Runs activities s) (sent : s.unsent = [])
    (idle : s.attempt = none) : GoesOn activities (posts trace) none := by
  obtain ⟨first, second, ⟨ok', a'⟩, rfl, hfirst, hsecond⟩ := follows_bind_iff.mp followed
  cases hsecond
  rw [List.append_nil]
  exact GoesOn.whole run sent idle hfirst

/-- Reporting the device and reading the worker change anything but the setup status. -/
theorem goesOn_poll {p p' : Poller} {kind : ReadKind} {report rest : List (Exchange Effects)}
    {result : Except TickError Unit} (reported : Poller.Reports report)
    (answered : Follows (p.read kind) rest (result, p')) (run : Runs activities s)
    (sent : s.unsent = []) (idle : s.attempt = none) :
    GoesOn activities (posts (report ++ rest)) none := by
  rw [posts_append, reported.posts_eq_nil, List.nil_append, ← idle]
  exact GoesOn.others run sent _ (setup?_posts_of_polls (p.read_asks kind answered))

theorem goesOn_tick {p p' : Poller} {trace : List (Exchange Effects)}
    {outcome : Except TickError TickOutcome} (ticked : p.Ticked trace outcome p')
    (run : Runs activities s) (sent : s.unsent = []) (idle : s.attempt = none) :
    GoesOn activities (posts trace) none := by
  cases ticked with
  | unready looked failed =>
    rw [posts_append, posts_looks looked, List.nil_append]
    exact goesOn_setUp failed run sent idle
  | alive looked reported answered =>
    rw [posts_append, posts_looks looked, List.nil_append]
    exact goesOn_poll reported answered run sent idle
  | ready looked prepared reported answered =>
    rw [posts_append, posts_looks looked, List.nil_append, posts_append]
    exact (goesOn_setUp prepared run sent idle).trans fun run₁ sent₁ idle₁ =>
      goesOn_poll reported answered run₁ sent₁ idle₁

end Observing

/-- Whatever a session posts, operations on the board can do. -/
theorem Session.Runs.observed {s s' : Session} {trace : List (Exchange Effects)}
    (run : s.Runs trace s') :
    ∃ activities o, Observing.Runs activities o ∧ Observing.changes activities = posts trace ∧
      o.unsent = [] ∧ o.attempt = none := by
  have hrun := run.invariant (fun trace _ => Observing.GoesOn [] (posts trace) none)
    (.here .start rfl) ?_
  · exact hrun
  · rintro past s more s' hpast ⟨q, -, ⟨rfl, -⟩ | ⟨outcome, hticked⟩⟩
    · rw [List.append_nil]
      exact hpast
    · rw [posts_append]
      exact hpast.trans fun run₁ sent₁ idle₁ => Observing.goesOn_tick hticked run₁ sent₁ idle₁

end Overseer
