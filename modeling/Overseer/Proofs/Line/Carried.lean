import Overseer.Effects
import Overseer.Proofs.Line.Calls

/-!
Actions carried out over a socket.

`OverSocket` runs an action with its channel operations performed by a socket and everything else
answered by the surroundings; each exchange is kept with the stream operations that it took. What
holds of such runs is stated as `Holds before action after`, with one rule for each way of building
an action.
-/

namespace Overseer

open Program

/-- An exchange with what it took on the streams. -/
structure Carried where
  exchange : Exchange Effects
  streams : List (Exchange Streams)

/-- A socket carries out an exchange and is left in a state. What does not concern the channel
passes by. -/
inductive Carries : Socket → Carried → Socket → Prop where
  | channel {s s' : Socket} {op : ChannelOp} {answer : op.Answer} {streams}
      (h : Follows (s.perform op) streams (answer, s')) :
      Carries s ⟨⟨.channel op, answer⟩, streams⟩ s'
  | beside {s : Socket} {e : Exchange Effects} (h : ∀ op, e.op ≠ .channel op) :
      Carries s ⟨e, []⟩ s

/-- A run of an action over a socket: all that was carried out, the result, and the socket after
it. -/
inductive OverSocket {α : Type} : Socket → Action α → List Carried → α → Socket → Prop where
  | done (s : Socket) (a : α) : OverSocket s (.done a) [] a s
  | ask {s s' s'' : Socket} {op : Effect} {next : op.Answer → Action α} {answer : op.Answer}
      {streams steps a} (step : Carries s ⟨⟨op, answer⟩, streams⟩ s')
      (rest : OverSocket s' (next answer) steps a s'') :
      OverSocket s (.ask op next) (⟨⟨op, answer⟩, streams⟩ :: steps) a s''

namespace OverSocket

variable {α β : Type} {s s' : Socket} {steps : List Carried}

/-- Without the streams, a run is a conversation of the action. -/
theorem follows {action : Action α} {a : α} (h : OverSocket s action steps a s') :
    Follows action (steps.map Carried.exchange) a := by
  induction h with
  | done s a => exact .done a
  | ask step rest ih => exact .ask _ ih

theorem bind_iff {action : Action α} {f : α → Action β} {b : β} :
    OverSocket s (action >>= f) steps b s' ↔
      ∃ first second a s₁, steps = first ++ second ∧ OverSocket s action first a s₁ ∧
        OverSocket s₁ (f a) second b s' := by
  constructor
  · induction action generalizing s steps with
    | done a =>
      intro h
      exact ⟨[], steps, a, s, rfl, .done s a, h⟩
    | ask op next ih =>
      intro h
      cases h with
      | ask step rest =>
        obtain ⟨first, second, a, s₁, rfl, hfirst, hsecond⟩ := ih _ rest
        exact ⟨_ :: first, second, a, s₁, rfl, .ask step hfirst, hsecond⟩
  · rintro ⟨first, second, a, s₁, rfl, hfirst, hsecond⟩
    induction hfirst with
    | done s a => exact hsecond
    | ask step rest ih => exact .ask step (ih hsecond)

end OverSocket

/-! ### Carrying out -/

/-- A worker's side of all streams, given what was carried out so far. -/
@[reducible] def Peer : Type := List Carried → Surroundings Streams

/-- Carries out one exchange against a peer and some surroundings: the answer, what it took on the
streams, and the socket after it. -/
def carry (peer : Peer) (around : Surroundings Effects) (past : List Carried) (s : Socket) :
    (effect : Effect) → effect.Answer × List (Exchange Streams) × Socket
  | .channel op =>
    let (streams, answer, s') := (s.perform op).converse (peer past) []
    (answer, streams, s')
  | effect => (around (past.map Carried.exchange) effect, [], s)

/-- Carries out an action against a peer and some surroundings. -/
def carryOut {α : Type} (peer : Peer) (around : Surroundings Effects) :
    List Carried → Socket → Action α → List Carried × α × Socket
  | _, s, .done a => ([], a, s)
  | past, s, .ask effect next =>
    let (answer, streams, s') := carry peer around past s effect
    let c : Carried := ⟨⟨effect, answer⟩, streams⟩
    let (steps, a, s'') := carryOut peer around (past ++ [c]) s' (next answer)
    (c :: steps, a, s'')

theorem carries_carry (peer : Peer) (around : Surroundings Effects) (past : List Carried)
    (s : Socket) (effect : Effect) :
    let (answer, streams, s') := carry peer around past s effect
    Carries s ⟨⟨effect, answer⟩, streams⟩ s' := by
  cases effect with
  | channel op => exact .channel (follows_converse (peer past) [] (s.perform op))
  | _ => exact .beside fun _ => nofun

/-- Every action can be carried out against every peer, in all surroundings. -/
theorem overSocket_carryOut {α : Type} (peer : Peer) (around : Surroundings Effects)
    (past : List Carried) (s : Socket) (action : Action α) :
    let run := carryOut peer around past s action
    OverSocket s action run.1 run.2.1 run.2.2 := by
  induction action generalizing past s with
  | done a => exact .done s a
  | ask effect next ih => exact .ask (carries_carry peer around past s effect) (ih _ _ _)

/-! ### Rules -/

/-- What is said of a history and the socket after it. -/
@[reducible] def Standing : Type := List Carried → Socket → Prop

/-- Every run of the action that starts where `before` holds ends where `after` holds. -/
def Holds {α : Type} (before : Standing) (action : Action α) (after : α → Standing) : Prop :=
  ∀ ⦃history s steps a s'⦄, before history s → OverSocket s action steps a s' →
    after a (history ++ steps) s'

namespace Holds

variable {α β : Type} {before middle : Standing} {after : α → Standing} {goal : β → Standing}

theorem done {a : α} (h : ∀ history s, before history s → after a history s) :
    Holds before (.done a) after := by
  intro history s steps b s' hbefore hrun
  cases hrun
  rw [List.append_nil]
  exact h history s hbefore

theorem bind {action : Action α} {f : α → Action β} (hfirst : Holds before action after)
    (hsecond : ∀ a, Holds (after a) (f a) goal) : Holds before (action >>= f) goal := by
  intro history s steps b s' hbefore hrun
  obtain ⟨first, second, a, s₁, rfl, hfirst', hsecond'⟩ := OverSocket.bind_iff.mp hrun
  rw [← List.append_assoc]
  exact hsecond a (hfirst hbefore hfirst') hsecond'

/-- A question, with what holds after each of its answers. -/
theorem call {op : Effect} {after : op.Answer → Standing}
    (h : ∀ history s answer streams s', before history s →
      Carries s ⟨⟨op, answer⟩, streams⟩ s' →
        after answer (history ++ [⟨⟨op, answer⟩, streams⟩]) s') :
    Holds before (Program.call (I := Effects) op) after := by
  intro history s steps a s' hbefore hrun
  cases hrun with
  | ask step rest =>
    cases rest
    exact h history s _ _ _ hbefore step

theorem start {before' : Standing} {action : Action α} (h : Holds before action after)
    (hbefore : ∀ history s, before' history s → before history s) : Holds before' action after :=
  fun _ _ _ _ _ hstart hrun => h (hbefore _ _ hstart) hrun

/-- What holds at the start may be used to prove the rest. -/
theorem of_fact {fact : Prop} {action : Action α} (hfact : ∀ history s, before history s → fact)
    (h : fact → Holds before action after) : Holds before action after :=
  fun _ _ _ _ _ hstart hrun => h (hfact _ _ hstart) hstart hrun

end Holds

/-! ### The newest connection -/

/-- A connection from its opening on: its stream, and what was carried out since. -/
@[reducible] def Line : Type := StreamId × List Carried

/-- The newest connection after one more step. -/
def Line.next (line : Option Line) (c : Carried) : Option Line :=
  match opened? c.streams with
  | some stream => some (stream, [])
  | none => line.map fun (stream, past) => (stream, past ++ [c])

/-- The newest connection of a history. -/
def newest (history : List Carried) : Option Line := history.foldl Line.next none

theorem newest_concat (history : List Carried) (c : Carried) :
    newest (history ++ [c]) = Line.next (newest history) c := by
  rw [newest, List.foldl_append]
  rfl

theorem newest_concat_of_opened {history : List Carried} {c : Carried} {stream : StreamId}
    (h : opened? c.streams = some stream) : newest (history ++ [c]) = some (stream, []) := by
  rw [newest_concat, Line.next, h]

theorem newest_concat_of_unopened {history : List Carried} {c : Carried}
    (h : opened? c.streams = none) :
    newest (history ++ [c]) = (newest history).map fun (stream, past) => (stream, past ++ [c]) := by
  rw [newest_concat, Line.next, h]

end Overseer
