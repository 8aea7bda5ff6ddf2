import Overseer.Poller
import Overseer.Proofs.Connecting
import Overseer.Proofs.Outside
import Overseer.Proofs.Stopping.Conversation

/-!
What setting up leaves alone.

An attempt to set up stops, installs and starts the worker and connects to it, but it never touches
a lock, reports no device and reads nothing of the worker but its preferences; it tells observers of
the setup status and of the preferences only (`run_setsUp`). So nothing that is read of the worker
by ticks changes.
-/

namespace Overseer

open Program

/-- A request that belongs to setting up. -/
def Request.Preparatory : Request → Prop
  | .authenticate _ | .quit | .getPreferences | .setHostInfo _ _ => True
  | _ => False

/-- An effect that belongs to setting up. -/
def Effect.Preparatory : Effect → Prop
  | .lock _ => False
  | .channel (.call request) => request.Preparatory
  | .post (.setup _) => True
  | .post (.preferences _) => True
  | .post _ => False
  | _ => True

/-- Everything asked belongs to setting up. -/
@[reducible] def Prepares {α : Type} (action : Action α) : Prop := Asks Effect.Preparatory action

/-- The part of a snapshot that reading the worker fills is the same. -/
structure Snapshot.SameReading (s s' : Snapshot) : Prop where
  worker : s'.worker = s.worker
  computing : s'.computing = s.computing
  updatedAt : s'.updatedAt = s.updatedAt

namespace Snapshot.SameReading

variable {s s' s'' : Snapshot}

theorem refl (s : Snapshot) : s.SameReading s := ⟨rfl, rfl, rfl⟩

theorem trans (h : s.SameReading s') (h' : s'.SameReading s'') : s.SameReading s'' :=
  ⟨h'.worker.trans h.worker, h'.computing.trans h.computing, h'.updatedAt.trans h.updatedAt⟩

theorem setup (status : SetupStatus) : s.SameReading ((StatusChange.setup status).apply s) :=
  ⟨rfl, rfl, rfl⟩

theorem preferences (p : Preferences) : s.SameReading ((StatusChange.preferences p).apply s) :=
  ⟨rfl, rfl, rfl⟩

end Snapshot.SameReading

/-! ### The machine and the connection -/

theorem Effect.Stops.preparatory {effect : Effect} (h : effect.Stops) : effect.Preparatory := by
  unfold Stops at h
  split at h
  case h_9 => exact h.elim
  all_goals trivial

theorem StaysOutside.prepares {α : Type} {action : Action α} (h : StaysOutside action) :
    Prepares action := by
  refine h.mono fun effect houtside => ?_
  cases effect with
  | channel op => cases houtside
  | lock call => cases houtside
  | post change => cases houtside
  | _ => trivial

namespace Connection

theorem prepares_close (c : Connection) : Prepares c.close :=
  Asks.question trivial fun _ => Asks.done _

theorem prepares_connect (c : Connection) : Prepares c.connect := by
  refine c.connect_ensures.mono ?_
  rintro trace ⟨connected, c'⟩ ⟨tried, -⟩
  exact fun e he => (tried.stops e he).preparatory

theorem prepares_connectAgain (c : Connection) (delay more : Nat) :
    Prepares (c.connectAgain delay more) := by
  induction more generalizing c with
  | zero => exact c.prepares_connect
  | succ more ih =>
    refine Asks.bind c.prepares_connect ?_
    rintro ⟨connected, c'⟩
    cases connected with
    | true => exact Asks.done _
    | false => exact Asks.question trivial fun _ => ih c'

end Connection

theorem Controller.prepares_terminate (c : Controller) (name : String) (connection : Connection) :
    Prepares (c.terminate name connection) :=
  (c.terminate_asks name connection).mono fun _ h => h.preparatory

/-! ### Attempts -/

/-- Setting up from this attempt on: only what belongs to it is asked, and what was read of the
worker stays. -/
def Attempt.SetsUp (a : Attempt) (action : Action (Bool × Attempt)) : Prop :=
  Ensures action fun trace (_, a') =>
    (∀ e ∈ trace, e.op.Preparatory) ∧ a.status.SameReading a'.status

namespace Attempt.SetsUp

variable {a a' : Attempt} {action : Action (Bool × Attempt)}

theorem done (ok : Bool) (h : a.status.SameReading a'.status) : a.SetsUp (.done (ok, a')) :=
  Ensures.done ⟨by simp, h⟩

/-- What was asked before goes with what is asked from then on. -/
theorem of_prepares {α : Type} {first : Action α} {f : α → Action (Bool × Attempt)}
    (h : Prepares first) (hf : ∀ x, a.SetsUp (f x)) : a.SetsUp (first >>= f) := by
  refine Ensures.bind h fun trace x htrace => (hf x).mono ?_
  rintro more ⟨ok, a'⟩ ⟨hmore, hsame⟩
  exact ⟨List.forall_mem_append.mpr ⟨htrace, hmore⟩, hsame⟩

theorem bind {f : Bool × Attempt → Action (Bool × Attempt)} (h : a.SetsUp action)
    (hf : ∀ ok (a' : Attempt), a'.SetsUp (f (ok, a'))) : a.SetsUp (action >>= f) := by
  refine Ensures.bind h ?_
  rintro trace ⟨ok, a₁⟩ ⟨htrace, hsame⟩
  refine (hf ok a₁).mono ?_
  rintro more ⟨ok', a₂⟩ ⟨hmore, hsame'⟩
  exact ⟨List.forall_mem_append.mpr ⟨htrace, hmore⟩, hsame.trans hsame'⟩

/-- Telling observers of a change that belongs to setting up. -/
theorem post {change : StatusChange} {f : Snapshot → Action (Bool × Attempt)}
    (hprepares : (Effect.post change).Preparatory)
    (hsame : a.status.SameReading (change.apply a.status))
    (hf : SetsUp { a with status := change.apply a.status } (f (change.apply a.status))) :
    a.SetsUp (Action.post a.status change >>= f) := by
  refine Ensures.question fun _ => Ensures.mono hf ?_
  rintro more ⟨ok, a'⟩ ⟨hmore, hsame'⟩
  exact ⟨List.forall_mem_cons.mpr ⟨hprepares, hmore⟩, hsame.trans hsame'⟩

end Attempt.SetsUp

namespace SetupPlan

variable (plan : SetupPlan) (a : Attempt)

/-- Stops the worker and installs it. -/
def replace : Action (Bool × Attempt) := do
  let (_, controller, connection) ← a.controller.terminate plan.processName a.connection
  let installed ← Action.files (plan.installer.ensureInstalled plan.forceReinstall)
  return (installed, { a with controller, connection })

/-- The worker is replaced if that is forced, or if the installed binary is not current. -/
theorem install_eq :
    plan.install a =
      if plan.forceReinstall then plan.replace a
      else Action.files plan.installer.isCurrent >>= fun current =>
        if current then return (true, a) else plan.replace a := by
  unfold install
  by_cases hforce : plan.forceReinstall
  · rw [if_pos hforce, if_pos hforce]
    rfl
  · rw [if_neg hforce, if_neg hforce]
    congr 1
    funext current
    cases current <;> rfl

theorem install_setsUp : a.SetsUp (plan.install a) := by
  have hreplace : a.SetsUp (plan.replace a) := by
    refine .of_prepares (Controller.prepares_terminate ..) ?_
    rintro ⟨outcome, controller, connection⟩
    exact .of_prepares (outside_files _).prepares fun _ => .done _ (.refl _)
  rw [install_eq]
  by_cases hforce : plan.forceReinstall
  · rw [if_pos hforce]
    exact hreplace
  · rw [if_neg hforce]
    refine .of_prepares (outside_files plan.installer.isCurrent).prepares fun current => ?_
    cases current with
    | true => exact .done _ (.refl _)
    | false => exact hreplace

theorem ensureRunning_setsUp : a.SetsUp (plan.ensureRunning a) := by
  refine .of_prepares (Controller.outside_find ..).prepares ?_
  rintro ⟨pid?, c₁⟩
  cases pid? with
  | some pid => exact .done _ (.refl _)
  | none => exact .of_prepares (c₁.outside_launch ..).prepares fun _ => .done _ (.refl _)

theorem introduce_setsUp : a.SetsUp (plan.introduce a) := by
  refine .of_prepares (Asks.question trivial Asks.done) fun answer => ?_
  cases answer with
  | error e => exact .of_prepares a.connection.prepares_close fun _ => .done _ (.refl _)
  | ok preferences =>
    refine .post trivial (.preferences preferences) ?_
    exact .of_prepares (Asks.question trivial Asks.done) fun _ => .done _ (.refl _)

theorem steps_setsUp : a.SetsUp (plan.steps a) := by
  refine .bind (plan.install_setsUp a) fun ok a₁ => ?_
  cases ok with
  | false => exact .done _ (.refl _)
  | true =>
    refine .bind (plan.ensureRunning_setsUp a₁) fun ok a₂ => ?_
    cases ok with
    | false => exact .done _ (.refl _)
    | true =>
      refine .of_prepares (Connection.prepares_connectAgain ..) ?_
      rintro ⟨connected, connection⟩
      cases connected with
      | false => exact .done _ (.refl _)
      | true => exact plan.introduce_setsUp { a₂ with connection }

theorem run_setsUp : a.SetsUp (plan.run a) := by
  refine .post trivial (.setup _) (.bind (plan.steps_setsUp _) fun ok a₁ => ?_)
  exact .post trivial (.setup _) (.done _ (.refl _))

end SetupPlan

/-- Setting a poller up changes no lock and nothing that was read of the worker. -/
theorem Poller.setUp_ensures (p : Poller) :
    Ensures p.setUp fun trace (_, p') =>
      (∀ e ∈ trace, e.op.Preparatory) ∧ p.status.SameReading p'.status ∧ p'.locks = p.locks := by
  refine Ensures.bind (p.plan.run_setsUp _) ?_
  rintro first ⟨ok, a⟩ ⟨hfirst, hsame⟩
  refine Ensures.done ⟨?_, hsame, rfl⟩
  rw [List.append_nil]
  exact hfirst

end Overseer
