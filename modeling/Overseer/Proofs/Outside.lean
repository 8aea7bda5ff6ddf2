import Overseer.Processes.Controller
import Overseer.Proofs.Conversations

/-!
What concerns the machine only.

Looking for processes, waiting for them, signalling and starting them, and everything about files
happens outside the channel, the locks and the snapshot. An action that is made of such effects
leaves all three alone.
-/

namespace Overseer

open Program

/-- An effect on files, processes or time. -/
def Effect.Outside : Effect → Prop
  | .file _ => True
  | .lookUp _ => True
  | .signal _ _ => True
  | .spawn _ _ _ => True
  | .sleep _ => True
  | _ => False

/-- Only files, processes and time are asked for. -/
@[reducible] def StaysOutside {α : Type} (action : Action α) : Prop := Asks Effect.Outside action

theorem asks_files {α : Type} {allowed : Effect → Prop} (h : ∀ op, allowed (.file op))
    (p : Program Files α) : Asks allowed (Action.files p) :=
  Asks.interpret fun op => Asks.ask (h op) Asks.done

theorem asks_locks {α : Type} {allowed : Effect → Prop} (h : ∀ call, allowed (.lock call))
    (p : Program LockBackends α) : Asks allowed (Action.locks p) :=
  Asks.interpret fun call => Asks.ask (h call) Asks.done

theorem outside_files {α : Type} (p : Program Files α) : StaysOutside (Action.files p) :=
  asks_files (fun _ => trivial) p

namespace Controller

variable (c : Controller) (name : String)

theorem outside_find : StaysOutside (c.find name) := by
  refine Asks.question trivial fun l => ?_
  cases l with
  | found pid => exact Asks.done _
  | absent => exact Asks.done _
  | failed => exact Asks.done _

theorem outside_launch (program : Path) (args : List String) (dir : Path) :
    StaysOutside (c.launch program args dir) := by
  refine Asks.question trivial fun launched => ?_
  cases launched with
  | true => exact Asks.done _
  | false => exact Asks.done _

theorem outside_waitForExit (rate attempts : Nat) :
    StaysOutside (c.waitForExit name rate attempts) := by
  induction attempts generalizing c with
  | zero => exact Asks.done _
  | succ attempts ih =>
    refine Asks.question trivial fun _ => Asks.bind (c.outside_find name) ?_
    rintro ⟨pid?, c'⟩
    cases pid? with
    | none => exact Asks.done _
    | some pid => exact ih c'

theorem outside_kill (pid : UInt32) : StaysOutside (c.kill name pid) := by
  refine Asks.question trivial fun _ => Asks.bind (c.outside_waitForExit ..) ?_
  rintro ⟨gone, c₁⟩
  cases gone with
  | true => exact Asks.done _
  | false =>
    refine Asks.bind (c₁.outside_find name) ?_
    rintro ⟨pid?, c₂⟩
    cases pid? with
    | none => exact Asks.done _
    | some pid => exact Asks.done _

theorem outside_forceStop : StaysOutside (c.forceStop name) := by
  refine Asks.bind (c.outside_find name) ?_
  rintro ⟨pid?, c₁⟩
  cases pid? with
  | none => exact Asks.done _
  | some pid =>
    refine Asks.question trivial fun _ => Asks.bind (outside_waitForExit ..) ?_
    rintro ⟨gone, c₂⟩
    cases gone with
    | true => exact Asks.done _
    | false =>
      refine Asks.bind (c₂.outside_find name) ?_
      rintro ⟨pid?, c₃⟩
      cases pid? with
      | none => exact Asks.done _
      | some pid => exact c₃.outside_kill name pid

end Controller

end Overseer
