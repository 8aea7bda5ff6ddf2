import Mathlib.Data.List.DropRight
import Overseer.Poller
import Overseer.Proofs.Conversations
import Overseer.Status.Board

/-!
Views of what a poller does.

A conversation with everything around it is looked at through one kind of exchange at a time: the
calls of locks' backends, the operations of the channel, and the changes that observers are told of.
-/

namespace Overseer

open Program

/-! ### Views of a conversation -/

/-- The calls of locks' backends, in order, each with whether it succeeded. -/
def lockCalls (trace : List (Exchange Effects)) : List (LockCall × Bool) :=
  trace.filterMap fun
    | ⟨.lock call, succeeded⟩ => some (call, succeeded)
    | _ => none

/-- A call of this lock's backend failed. -/
def lockFailed (lock : PowerLock) (trace : List (Exchange Effects)) : Bool :=
  (lockCalls trace).any fun (call, succeeded) => call.lock = lock ∧ ¬succeeded

/-- What was done with the channel, in order. -/
def channelled (trace : List (Exchange Effects)) : List (Exchange Channel) :=
  trace.filterMap fun
    | ⟨.channel op, answer⟩ => some ⟨op, answer⟩
    | _ => none

/-- The changes that observers were told of, in order. -/
def posts (trace : List (Exchange Effects)) : List StatusChange :=
  trace.filterMap fun
    | ⟨.post change, _⟩ => some change
    | _ => none

section Views

variable (lock : PowerLock) (first second : List (Exchange Effects))

@[simp] theorem lockCalls_append :
    lockCalls (first ++ second) = lockCalls first ++ lockCalls second :=
  List.filterMap_append ..

@[simp] theorem lockFailed_append :
    lockFailed lock (first ++ second) = (lockFailed lock first || lockFailed lock second) := by
  rw [lockFailed, lockCalls_append, List.any_append]
  rfl

@[simp] theorem channelled_append :
    channelled (first ++ second) = channelled first ++ channelled second :=
  List.filterMap_append ..

@[simp] theorem posts_append : posts (first ++ second) = posts first ++ posts second :=
  List.filterMap_append ..

theorem mem_channelled {trace : List (Exchange Effects)} {op : ChannelOp} {answer : op.Answer} :
    (⟨op, answer⟩ : Exchange Channel) ∈ channelled trace ↔
      (⟨.channel op, answer⟩ : Exchange Effects) ∈ trace := by
  rw [channelled, List.mem_filterMap]
  constructor
  · rintro ⟨⟨effect, reply⟩, hmem, heq⟩
    cases effect <;> cases heq
    exact hmem
  · intro hmem
    exact ⟨_, hmem, rfl⟩

end Views

/-! ### What observers are told -/

namespace Snapshot

/-- The snapshot after some changes. -/
def after (s : Snapshot) (changes : List StatusChange) : Snapshot :=
  changes.foldl (fun s change => change.apply s) s

/-- The events that changes announce, one change after the other. -/
def announced (s : Snapshot) : List StatusChange → List StatusEvent
  | [] => []
  | change :: rest => (change.event? s).toList ++ (change.apply s).announced rest

variable (s : Snapshot) (first second : List StatusChange)

theorem after_append : s.after (first ++ second) = (s.after first).after second :=
  List.foldl_append

theorem announced_append :
    s.announced (first ++ second) = s.announced first ++ (s.after first).announced second := by
  induction first generalizing s with
  | nil => rfl
  | cons change rest ih =>
    rw [List.cons_append, announced, announced, ih, List.append_assoc]
    rfl

end Snapshot

theorem rtake_rtake_append {α : Type} (first second : List α) (n : Nat) :
    (first.rtake n ++ second).rtake n = (first ++ second).rtake n := by
  simp only [List.rtake_eq_reverse_take_reverse, List.reverse_append, List.reverse_reverse,
    List.take_append, List.take_take, List.length_reverse]
  rw [Nat.min_eq_left (Nat.sub_le n _)]

namespace Board

variable (b : Board) (change : StatusChange)

theorem snapshot_post : (b.post change).snapshot = change.apply b.snapshot := by
  unfold post
  cases change.event? b.snapshot <;> rfl

/-- A board that is told of all changes shows the snapshot after them. -/
theorem snapshot_foldl_post (changes : List StatusChange) :
    (changes.foldl post b).snapshot = b.snapshot.after changes := by
  induction changes generalizing b with
  | nil => rfl
  | cons change rest ih =>
    rw [List.foldl_cons, ih, snapshot_post]
    rfl

end Board

/-! ### Surroundings in which all goes well -/

/-- The answers of surroundings in which a worker can be reached and has one notice to tell. -/
def Effect.plain : (effect : Effect) → effect.Answer
  | .channel (.connect _) => .ok ()
  | .channel .isAlive => true
  | .channel (.call (.authenticate _)) => .ok ()
  | .channel (.call .quit) => .ok ()
  | .channel (.call .getStatus) => .ok ⟨.notSuspended, .notSuspended, 2, 2⟩
  | .channel (.call .getState) => .ok ⟨[], [], some ⟨"host", "os", "1", "", 4⟩⟩
  | .channel (.call .getTransfers) => .ok []
  | .channel (.call .getAccountManager) => .ok ⟨"", "", false⟩
  | .channel (.call (.getNotices since)) => .ok [⟨since + 1, "news", "", 0, true⟩]
  | .channel (.call .getPreferences) => .ok ⟨false, true, 0, 0, 100, false⟩
  | .channel (.call (.reportDevice _)) => .ok ()
  | .channel (.call (.setHostInfo _ _)) => .ok ()
  | .channel .close => ()
  | .file (.isPresent _) => false
  | .file (.isDirectory _) => false
  | .file (.readText _) => .ok "token"
  | .file (.readBytes _) => .ok .empty
  | .file (.list _) => .ok []
  | .file (.mode _) => .error .notFound
  | .file (.createDirectories _) => .ok ()
  | .file (.setMode _ _) => .ok ()
  | .file (.copy _ _) => .ok ()
  | .file (.rename _ _) => .ok ()
  | .file (.remove _) => .ok ()
  | .file (.write _ _) => .ok ()
  | .file (.openForUpdate _) => .ok ()
  | .file (.truncate _) => .ok ()
  | .file (.append _ _) => .ok ()
  | .lock _ => true
  | .lookUp _ => .absent
  | .signal _ _ => true
  | .spawn _ _ _ => true
  | .sleep _ => ()
  | .now => ⟨0⟩
  | .readPower => {}
  | .post _ => ()

end Overseer
