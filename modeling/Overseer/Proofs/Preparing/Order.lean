import Overseer.Proofs.Outside
import Overseer.Proofs.Preparing.Phases

/-!
The order in which an attempt to set up acts.

`deeds` is what an attempt does to the worker, its process and its files, in order. `InOrder` says
which phase does what and when a phase is reached at all: unless the installation is forced, both
binaries are read and compared, and a current one is left alone with its worker; a stale one is
replaced only after stopping it came to its end, a process is launched only where none was found,
and everything that follows needs a connection. `setup_in_order` is the main statement.
-/

namespace Overseer

open Program

/-! ### Deeds -/

/-- The operations that may change a file. -/
def FileOp.changes : FileOp → Bool
  | .readText _ | .readBytes _ | .isPresent _ | .isDirectory _ | .list _ | .mode _ => false
  | _ => true

inductive Deed where
  /-- Looking for the worker's process. -/
  | look
  | signal
  | launch
  | pause
  /-- Changing a file. -/
  | change
  /-- Opening the channel, which every attempt to connect begins with. -/
  | connect
  /-- Asking the worker to quit. -/
  | quit
  | askPreferences
  /-- Telling the worker about the host. -/
  | tellHost
deriving DecidableEq, Repr

/-- What an effect does, if it does anything. -/
def Effect.deed? : Effect → Option Deed
  | .lookUp _ => some .look
  | .signal _ _ => some .signal
  | .spawn _ _ _ => some .launch
  | .sleep _ => some .pause
  | .file op => if op.changes then some .change else none
  | .channel (.connect _) => some .connect
  | .channel (.call .quit) => some .quit
  | .channel (.call .getPreferences) => some .askPreferences
  | .channel (.call (.setHostInfo _ _)) => some .tellHost
  | _ => none

/-- What is done, in order. -/
def deeds (trace : List (Exchange Effects)) : List Deed := trace.filterMap fun e => e.op.deed?

@[simp] theorem deeds_nil : deeds [] = [] := rfl

@[simp] theorem deeds_append (first second : List (Exchange Effects)) :
    deeds (first ++ second) = deeds first ++ deeds second :=
  List.filterMap_append ..

theorem deeds_cons (e : Exchange Effects) (trace : List (Exchange Effects)) :
    deeds (e :: trace) = e.op.deed?.toList ++ deeds trace := by
  cases h : e.op.deed? <;> simp [deeds, h]

theorem mem_deeds {trace : List (Exchange Effects)} {deed : Deed} :
    deed ∈ deeds trace ↔ ∃ e ∈ trace, e.op.deed? = some deed :=
  List.mem_filterMap

/-! ### What each phase does -/

theorem Installer.ReadsOnly.deeds_eq_nil {trace : List (Exchange Effects)}
    (h : Installer.ReadsOnly trace) : deeds trace = [] := by
  refine List.filterMap_eq_nil_iff.mpr fun e he => ?_
  obtain ⟨path, hop⟩ := h e he
  rw [hop]
  rfl

/-- All that a program over files can do is to change them. -/
theorem deeds_of_files {α : Type} {p : Program Files α} {trace : List (Exchange Effects)}
    {result : α} (h : Follows (Action.files p) trace result) :
    ∀ deed ∈ deeds trace, deed = .change := by
  intro deed hdeed
  obtain ⟨e, he, heq⟩ := mem_deeds.mp hdeed
  have hfiles : Asks (fun effect : Effect => ∃ op, effect = .file op) (Action.files p) :=
    asks_files (fun op => ⟨op, rfl⟩) p
  obtain ⟨op, hop⟩ := hfiles h e he
  rw [hop, Effect.deed?] at heq
  split at heq
  · exact (Option.some.inj heq).symm
  · cases heq

section Connecting

variable {c : Connection} {trace : List (Exchange Effects)} {connected : Bool} {budget : Nat}
  {tries : List (List (Exchange Effects) × Bool)}

theorem Connection.Tried.deeds_eq (h : c.Tried trace connected) : deeds trace = [.connect] := by
  cases h <;> rfl

theorem Connection.Retries.deeds_eq (h : c.Retries budget tries connected) (delay : Nat) :
    deeds (Connection.retrying delay tries)
      = (List.replicate tries.length .connect).intersperse .pause := by
  have hone : ∀ t ∈ tries, deeds t.1 = [.connect] := fun t ht => (h.tried t ht).deeds_eq
  clear h
  induction tries with
  | nil => rfl
  | cons t rest ih =>
    obtain ⟨ht, hrest⟩ := List.forall_mem_cons.mp hone
    cases rest with
    | nil => simpa [Connection.retrying] using ht
    | cons next more =>
      rw [Connection.retrying_cons delay t (List.cons_ne_nil _ _), deeds_append, deeds_append,
        ih hrest, ht]
      rfl

end Connecting

section Stopping

variable {connection : Connection} {name : String} {budgets : Config.Shutdown} {rate : Nat}
  {results : List Lookup} {trace : List (Exchange Effects)} {outcome : StopOutcome} {gone : Bool}

/-- Stopping changes no file, launches nothing and asks for nothing else. -/
theorem Effect.Stops.deed {effect : Effect} {deed : Deed} (h : effect.Stops)
    (hdeed : effect.deed? = some deed) : deed ∈ [.look, .connect, .quit, .pause, .signal] := by
  unfold Effect.Stops at h
  split at h
  case h_9 => exact h.elim
  all_goals simp only [Effect.deed?, FileOp.changes, Option.some.injEq, reduceCtorEq,
    Bool.false_eq_true, if_false] at hdeed
  all_goals simp [← hdeed]

theorem deeds_looks : deeds (looks name results) = results.map fun _ => .look := by
  induction results with
  | nil => rfl
  | cons l rest ih => exact congrArg (Deed.look :: ·) ih

theorem deeds_checks :
    deeds (checks name rate results) = results.flatMap fun _ => [.pause, .look] := by
  induction results with
  | nil => rfl
  | cons l rest ih => exact congrArg ([Deed.pause, Deed.look] ++ ·) ih

/-- Asking the worker to quit opens the channel once, -/
theorem Asking.count_connect (h : Asking connection name budgets trace gone) :
    (deeds trace).count .connect = 1 := by
  cases h with
  | unconnected tried => simp [tried.deeds_eq]
  | asked token answer results bounded seen =>
    have hchecks : Deed.connect ∉ results.flatMap fun _ => [Deed.pause, Deed.look] := by simp
    rw [deeds_append, deeds_append, deeds_checks, List.count_append, List.count_append,
      List.count_eq_zero.mpr hchecks, (Connection.Tried.accepted token).deeds_eq]
    rfl

/-- signals need no channel, -/
theorem Forced.connect_notMem (h : Forced name budgets trace outcome) :
    .connect ∉ deeds trace := by
  cases h with
  | gone absent => simp [deeds_cons, Effect.deed?]
  | quit pid sent results final bounded latest =>
    simp [deeds_cons, deeds_checks, deeds_looks, Effect.deed?]
  | kill pid sent results pid' sent' results' final full found bounded ended latest =>
    simp [deeds_cons, deeds_checks, deeds_looks, Effect.deed?]

/-- and so stopping the worker opens it at most once. -/
theorem Stopping.count_connect_le (h : Stopping connection name budgets trace outcome) :
    (deeds trace).count .connect ≤ 1 := by
  cases h with
  | absent absent => exact Nat.zero_le 1
  | asked pid asking =>
    rw [deeds_append, List.count_append, asking.count_connect]
    exact Nat.le_refl 1
  | forced pid asking forced =>
    rw [deeds_append, deeds_append, List.count_append, List.count_append, asking.count_connect,
      List.count_eq_zero.mpr forced.connect_notMem]
    exact Nat.le_refl 1

end Stopping

section Starting

variable (plan : SetupPlan)

theorem SetupPlan.deeds_starting (looked : Option Lookup) (launched : Option Bool) :
    deeds (plan.starting looked launched)
      = looked.toList.map (fun _ => .look) ++ launched.toList.map fun _ => .launch := by
  cases looked <;> cases launched <;> rfl

theorem SetupPlan.deeds_introducing {introduced : Option (Except ChannelError Unit)}
    {preferences : Option (Except ChannelError Preferences)}
    (h : introduced.isSome ↔ ∃ p, preferences = some (.ok p)) :
    deeds (plan.introducing introduced preferences)
      = preferences.toList.map (fun _ => .askPreferences)
        ++ introduced.toList.map fun _ => .tellHost := by
  cases introduced with
  | none =>
    cases preferences with
    | none => rfl
    | some answer =>
      cases answer with
      | error e => rfl
      | ok p => simp at h
  | some answer =>
    obtain ⟨p, rfl⟩ := h.mp rfl
    rfl

end Starting

/-! ### The order -/

theorem mem_of_mem_intersperse {α : Type} {sep x : α} {l : List α} (h : x ∈ l.intersperse sep) :
    x ∈ l ∨ x = sep := by
  fun_induction List.intersperse sep l with
  | case1 => exact .inl h
  | case2 => exact .inl h
  | case3 y rest _ ih =>
    rcases List.mem_cons.mp h with rfl | h
    · exact .inl List.mem_cons_self
    · rcases List.mem_cons.mp h with rfl | h
      · exact .inr rfl
      · exact (ih h).imp_left (List.mem_cons_of_mem y)

namespace Phases

variable {phases : Phases} {plan : SetupPlan} {a : Attempt} {ok : Bool}

/-- What is done once the worker is installed: it is looked for, launched, connected to and spoken
to, each as far as the attempt comes. -/
def after (phases : Phases) : List Deed :=
  phases.looked.toList.map (fun _ => .look) ++ phases.launched.toList.map (fun _ => .launch)
    ++ (List.replicate phases.tries.length .connect).intersperse .pause
    ++ (phases.preferences.toList.map (fun _ => .askPreferences)
      ++ phases.introduced.toList.map fun _ => .tellHost)

/-- The phases are the whole attempt, each is reached under its condition, and each does its part
of the work only. -/
structure InOrder (phases : Phases) (plan : SetupPlan) (a : Attempt)
    (trace : List (Exchange Effects)) (ok : Bool) : Prop where
  whole : trace = phases.trace plan ok
  proceeds : phases.Proceeds plan a ok
  /-- First the worker is stopped, then it is installed, and all else follows. -/
  done : deeds trace = deeds phases.stop ++ deeds phases.install ++ phases.after
  stopping : ∀ deed ∈ deeds phases.stop, deed ∈ [.look, .connect, .quit, .pause, .signal]
  connectedOnce : (deeds phases.stop).count .connect ≤ 1
  installing : ∀ deed ∈ deeds phases.install, deed = .change
  /-- A current binary stays, and so does the worker that runs it. -/
  untouched : plan.forceReinstall = false → plan.installer.Current phases.compare →
    .quit ∉ deeds trace ∧ .signal ∉ deeds trace ∧ .change ∉ deeds trace
  /-- Nothing follows an installation that failed. -/
  abandoned : phases.installed = false → phases.after = []

theorem Proceeds.deeds_eq (h : phases.Proceeds plan a ok) :
    deeds (phases.trace plan ok) = deeds phases.stop ++ deeds phases.install ++ phases.after := by
  have hstatus (status : SetupStatus) : deeds [⟨.post (.setup status), ()⟩] = [] := rfl
  have hretrying : deeds (Connection.retrying plan.retry.connectDelayMs phases.tries)
      = (List.replicate phases.tries.length .connect).intersperse .pause := by
    by_cases htries : phases.tries = []
    · rw [htries]
      rfl
    · obtain ⟨connected, hretries⟩ := h.retries htries
      exact hretries.deeds_eq _
  simp only [trace, work, after, deeds_append, hstatus, h.prepared.readsOnly.deeds_eq_nil,
    plan.deeds_starting, hretrying, plan.deeds_introducing h.introduced_iff, List.nil_append,
    List.append_nil, List.append_assoc]

/-- The worker is quit, signalled and changed only to stop and to install it. -/
theorem notMem_after {deed : Deed} (h : deed ∈ [.quit, .signal, .change]) :
    deed ∉ phases.after := by
  intro hafter
  simp only [after, List.mem_append, List.mem_map] at hafter
  rcases hafter with ((⟨_, -, rfl⟩ | ⟨_, -, rfl⟩) | htries) | ⟨_, -, rfl⟩ | ⟨_, -, rfl⟩
  · simp at h
  · simp at h
  · rcases mem_of_mem_intersperse htries with hconnect | rfl
    · obtain rfl := List.eq_of_mem_replicate hconnect
      simp at h
    · simp at h
  · simp at h
  · simp at h

theorem Proceeds.after_eq_nil (h : phases.Proceeds plan a ok)
    (hinstalled : phases.installed = false) : phases.after = [] := by
  have hlooked : phases.looked = none := by
    simpa [hinstalled] using h.looked_iff
  have hlaunched : phases.launched = none := by
    simpa [hlooked] using h.launched_iff
  have htries : phases.tries = [] := by
    simpa [hlooked, hlaunched] using h.tries_iff
  have hpreferences : phases.preferences = none := by
    simpa [htries] using h.preferences_iff
  have hintroduced : phases.introduced = none := by
    simpa [hpreferences] using h.introduced_iff
  simp [after, hlooked, hlaunched, htries, hpreferences, hintroduced]

theorem Proceeds.inOrder (h : phases.Proceeds plan a ok) :
    phases.InOrder plan a (phases.trace plan ok) ok where
  whole := rfl
  proceeds := h
  done := h.deeds_eq
  stopping := by
    rcases h.prepared.kept_or_replaced with ⟨-, -, hstop, -, -⟩ | ⟨⟨outcome, hstopping⟩, -⟩
    · simp [hstop]
    · intro deed hdeed
      obtain ⟨e, he, heq⟩ := mem_deeds.mp hdeed
      exact (hstopping.stops e he).deed heq
  connectedOnce := by
    rcases h.prepared.kept_or_replaced with ⟨-, -, hstop, -, -⟩ | ⟨⟨outcome, hstopping⟩, -⟩
    · simp [hstop]
    · exact hstopping.count_connect_le
  installing := by
    rcases h.prepared.kept_or_replaced with ⟨-, -, -, hinstall, -⟩ | ⟨-, hinstalling⟩
    · simp [hinstall]
    · exact deeds_of_files hinstalling
  untouched := by
    intro hforce hcurrent
    obtain ⟨hstop, hinstall, -⟩ := h.prepared.kept hforce hcurrent
    have hdone : deeds (phases.trace plan ok) = phases.after := by
      rw [h.deeds_eq, hstop, hinstall]
      rfl
    rw [hdone]
    exact ⟨notMem_after (by simp), notMem_after (by simp), notMem_after (by simp)⟩
  abandoned := h.after_eq_nil

end Phases

/-- Every attempt to set up, in whatever surroundings, goes through phases in this order. -/
theorem setup_in_order (plan : SetupPlan) (a : Attempt) (around : Surroundings Effects) :
    ∃ phases : Phases,
      phases.InOrder plan a ((plan.run a).converse around []).1
        ((plan.run a).converse around []).2.1 := by
  obtain ⟨-, -, phases, htrace, hproceeds⟩ := (plan.run_ensures a).converse around
  refine ⟨phases, ?_⟩
  rw [htrace]
  exact hproceeds.inOrder

end Overseer
