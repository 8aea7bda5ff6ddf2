import Overseer.Processes.Controller
import Overseer.Proofs.Connecting
import Overseer.Proofs.Throughout

/-!
Stopping the worker, whatever the process table and the worker do.

`terminate` has a small grammar of conversations: it asks the worker to quit (`Asking`), and if that
leaves a process it goes on with signals (`Forced`). `terminate_ensures` says that there are no
other conversations; the laws of stopping are read off the grammar, case by case, and gathered in
`terminate_orderly`.
-/

namespace Overseer

open Program

/-- The process number that a look-up gives, if any. -/
def Lookup.pid? : Lookup → Option UInt32
  | .found pid => some pid
  | .absent => none
  | .failed => none

theorem Lookup.eq_found_of_pid? {l : Lookup} {pid : UInt32} (h : l.pid? = some pid) :
    l = .found pid := by
  cases l with
  | found other => exact congrArg _ (Option.some.inj h)
  | absent => cases h
  | failed => cases h

namespace StopOutcome

/-- The process that outlived the signal to kill. -/
def survivor? : StopOutcome → Option UInt32
  | .survived pid => some pid
  | _ => none

/-- The worker's state after stopping ended so. -/
def state (outcome : StopOutcome) : WorkerState :=
  if outcome.survivor?.isSome then .running else .notRunning

end StopOutcome

/-! ### Views of a conversation -/

/-- The results of all look-ups, in order. -/
def lookups (trace : List (Exchange Effects)) : List Lookup :=
  trace.filterMap fun
    | ⟨.lookUp _, result⟩ => some result
    | _ => none

/-- The signals that were sent, in order. -/
def signals (trace : List (Exchange Effects)) : List (UInt32 × StopSignal) :=
  trace.filterMap fun
    | ⟨.signal pid signal, _⟩ => some (pid, signal)
    | _ => none

/-- The pauses, in order. -/
def sleeps (trace : List (Exchange Effects)) : List Nat :=
  trace.filterMap fun
    | ⟨.sleep millis, _⟩ => some millis
    | _ => none

/-- The answers to requests to quit, in order. -/
def quits (trace : List (Exchange Effects)) : List (Except ChannelError Unit) :=
  trace.filterMap fun
    | ⟨.channel (.call .quit), answer⟩ => some answer
    | _ => none

section Views

variable (first second : List (Exchange Effects))

@[simp] theorem lookups_append : lookups (first ++ second) = lookups first ++ lookups second :=
  List.filterMap_append ..

@[simp] theorem signals_append : signals (first ++ second) = signals first ++ signals second :=
  List.filterMap_append ..

@[simp] theorem sleeps_append : sleeps (first ++ second) = sleeps first ++ sleeps second :=
  List.filterMap_append ..

@[simp] theorem quits_append : quits (first ++ second) = quits first ++ quits second :=
  List.filterMap_append ..

end Views

/-! ### Waiting -/

/-- The last of some look-ups gives this process number, or none. -/
def Latest (results : List Lookup) (pid? : Option UInt32) : Prop :=
  ∃ l, results.getLast? = some l ∧ l.pid? = pid?

theorem Latest.append {results : List Lookup} {pid? : Option UInt32} (earlier : List Lookup)
    (h : Latest results pid?) : Latest (earlier ++ results) pid? := by
  obtain ⟨l, hlast, hl⟩ := h
  exact ⟨l, by rw [List.getLast?_append, hlast]; rfl, hl⟩

/-- Every look-up found a process. -/
def AllFound (results : List Lookup) : Prop := ∀ l ∈ results, l.pid?.isSome

/-- Look-ups right after one another. -/
def looks (name : String) (results : List Lookup) : List (Exchange Effects) :=
  results.map fun l => ⟨.lookUp name, l⟩

/-- Look-ups with a pause before each. -/
def checks (name : String) (rate : Nat) (results : List Lookup) : List (Exchange Effects) :=
  results.flatMap fun l => [⟨.sleep rate, ()⟩, ⟨.lookUp name, l⟩]

section Waiting

variable (name : String) (rate : Nat) (results : List Lookup)

@[simp] theorem lookups_looks : lookups (looks name results) = results := by
  induction results with
  | nil => rfl
  | cons l rest ih => exact congrArg (l :: ·) ih

@[simp] theorem lookups_checks : lookups (checks name rate results) = results := by
  induction results with
  | nil => rfl
  | cons l rest ih => exact congrArg (l :: ·) ih

@[simp] theorem sleeps_checks :
    sleeps (checks name rate results) = List.replicate results.length rate := by
  induction results with
  | nil => rfl
  | cons l rest ih => exact congrArg (rate :: ·) ih

@[simp] theorem sleeps_looks : sleeps (looks name results) = [] := by
  induction results with
  | nil => rfl
  | cons l rest ih => exact ih

variable {name rate results}

theorem op_of_mem_looks {e : Exchange Effects} (h : e ∈ looks name results) :
    e.op = .lookUp name := by
  obtain ⟨l, _, rfl⟩ := List.mem_map.mp h
  rfl

theorem op_of_mem_checks {e : Exchange Effects} (h : e ∈ checks name rate results) :
    e.op = .sleep rate ∨ e.op = .lookUp name := by
  obtain ⟨l, _, hl⟩ := List.mem_flatMap.mp h
  simp only [List.mem_cons, List.not_mem_nil, or_false] at hl
  rcases hl with rfl | rfl
  · exact .inl rfl
  · exact .inr rfl

end Waiting

@[simp] theorem Controller.seen_budgets (c : Controller) : c.seen.budgets = c.budgets := by
  unfold seen
  split <;> rfl

@[simp] theorem Controller.unseen_budgets (c : Controller) : c.unseen.budgets = c.budgets := by
  unfold unseen
  split <;> rfl

/-- A look-up changes only the state that is recorded. -/
theorem Controller.find_ensures (c : Controller) (name : String) :
    Ensures (c.find name) fun trace (pid?, c') =>
      c'.budgets = c.budgets ∧ ∃ l, trace = [⟨.lookUp name, l⟩] ∧ pid? = l.pid? := by
  apply Ensures.question
  intro l
  cases l with
  | found pid => exact Ensures.done ⟨c.seen_budgets, _, rfl, rfl⟩
  | absent => exact Ensures.done ⟨c.unseen_budgets, _, rfl, rfl⟩
  | failed => exact Ensures.done ⟨rfl, _, rfl, rfl⟩

/-- Waiting is a row of checks: it ends with the first that finds nothing, or after all of them. -/
theorem Controller.waitForExit_ensures (c : Controller) (name : String) (rate attempts : Nat) :
    Ensures (c.waitForExit name rate attempts) fun trace (gone, c') =>
      c'.budgets = c.budgets ∧ ∃ results, trace = checks name rate results ∧
        if gone then results.length ≤ attempts ∧ Latest results none
        else results.length = attempts ∧ AllFound results := by
  induction attempts generalizing c with
  | zero => exact Ensures.done ⟨rfl, [], rfl, rfl, by simp [AllFound]⟩
  | succ attempts ih =>
    apply Ensures.question
    intro _
    refine Ensures.bind (c.find_ensures name) ?_
    rintro first ⟨pid?, c₁⟩ ⟨hbudgets, l, rfl, rfl⟩
    cases hl : l.pid? with
    | none =>
      exact Ensures.done ⟨hbudgets, [l], rfl, by simp, l, rfl, hl⟩
    | some pid =>
      refine (ih c₁).mono ?_
      rintro second ⟨gone, c₂⟩ ⟨hbudgets', results, rfl, hresults⟩
      refine ⟨hbudgets'.trans hbudgets, l :: results, rfl, ?_⟩
      cases gone with
      | true =>
        obtain ⟨hlength, last, hlast, hnone⟩ := hresults
        exact ⟨Nat.succ_le_succ hlength, last, by simp [List.getLast?_cons, hlast], hnone⟩
      | false =>
        obtain ⟨hlength, hfound⟩ := hresults
        exact ⟨congrArg (· + 1) hlength, List.forall_mem_cons.mpr ⟨by simp [hl], hfound⟩⟩

/-! ### The grammar of stopping -/

/-- The ways of asking the worker to quit, each with whether it is seen to be gone. -/
inductive Asking (connection : Connection) (name : String) (budgets : Config.Shutdown) :
    List (Exchange Effects) → Bool → Prop where
  | unconnected {trace} (tried : connection.Tried trace false) :
      Asking connection name budgets trace false
  | asked (token : String) (answer : Except ChannelError Unit) (results : List Lookup) {gone}
      (bounded : results.length ≤ budgets.gracefulAttempts)
      (seen : gone = true → answer = .ok () ∧ Latest results none) :
      Asking connection name budgets
        (connection.success token ++ [⟨.channel (.call .quit), answer⟩, ⟨.channel .close, ()⟩]
          ++ checks name budgets.gracefulRateMs results) gone

/-- The ways of stopping a process with signals, each with its outcome. -/
inductive Forced (name : String) (budgets : Config.Shutdown) :
    List (Exchange Effects) → StopOutcome → Prop where
  | gone {l} (absent : l.pid? = none) : Forced name budgets [⟨.lookUp name, l⟩] .graceful
  | quit (pid : UInt32) (sent : Bool) (results final : List Lookup)
      (bounded : results.length ≤ budgets.signalAttempts)
      (latest : Latest (results ++ final) none) :
      Forced name budgets
        ([⟨.lookUp name, .found pid⟩, ⟨.signal pid .quit, sent⟩]
          ++ (checks name budgets.signalRateMs results ++ looks name final)) .quit
  | kill (pid : UInt32) (sent : Bool) (results : List Lookup) (pid' : UInt32) (sent' : Bool)
      (results' final : List Lookup) {outcome}
      (full : results.length = budgets.signalAttempts) (found : AllFound results)
      (bounded : results'.length ≤ budgets.signalAttempts)
      (ended : outcome = .killed ∨ ∃ survivor, outcome = .survived survivor)
      (latest : Latest (results' ++ final) outcome.survivor?) :
      Forced name budgets
        ([⟨.lookUp name, .found pid⟩, ⟨.signal pid .quit, sent⟩]
          ++ checks name budgets.signalRateMs results
          ++ [⟨.lookUp name, .found pid'⟩, ⟨.signal pid' .kill, sent'⟩]
          ++ (checks name budgets.signalRateMs results' ++ looks name final)) outcome

/-- The ways of stopping the worker, each with its outcome. -/
inductive Stopping (connection : Connection) (name : String) (budgets : Config.Shutdown) :
    List (Exchange Effects) → StopOutcome → Prop where
  | absent {l} (absent : l.pid? = none) :
      Stopping connection name budgets [⟨.lookUp name, l⟩] .notRunning
  | asked (pid : UInt32) {trace} (asking : Asking connection name budgets trace true) :
      Stopping connection name budgets ([⟨.lookUp name, .found pid⟩] ++ trace) .graceful
  | forced (pid : UInt32) {trace rest outcome} (asking : Asking connection name budgets trace false)
      (forced : Forced name budgets rest outcome) :
      Stopping connection name budgets ([⟨.lookUp name, .found pid⟩] ++ trace ++ rest) outcome

namespace Controller

theorem kill_ensures (c : Controller) (name : String) (pid : UInt32) :
    Ensures (c.kill name pid) fun trace (outcome, c') =>
      c'.state = outcome.state ∧ (outcome = .killed ∨ ∃ survivor, outcome = .survived survivor) ∧
        ∃ sent results final, results.length ≤ c.budgets.signalAttempts ∧
          Latest (results ++ final) outcome.survivor? ∧
          trace = ⟨.signal pid .kill, sent⟩
            :: (checks name c.budgets.signalRateMs results ++ looks name final) := by
  apply Ensures.question
  intro sent
  refine Ensures.bind (c.waitForExit_ensures ..) ?_
  rintro first ⟨gone, c₁⟩ ⟨hbudgets, results, rfl, hresults⟩
  cases gone with
  | true =>
    obtain ⟨hlength, hlatest⟩ := hresults
    exact Ensures.done ⟨rfl, .inl rfl, sent, results, [], hlength,
      by simpa [StopOutcome.survivor?] using hlatest, rfl⟩
  | false =>
    obtain ⟨hlength, -⟩ := hresults
    refine Ensures.bind (c₁.find_ensures name) ?_
    rintro second ⟨pid?, c₂⟩ ⟨-, l, rfl, rfl⟩
    cases hl : l.pid? with
    | none =>
      exact Ensures.done
        ⟨rfl, .inl rfl, sent, results, [l], Nat.le_of_eq hlength, ⟨l, by simp, hl⟩, by simp [looks]⟩
    | some survivor =>
      exact Ensures.done ⟨rfl, .inr ⟨survivor, rfl⟩, sent, results, [l], Nat.le_of_eq hlength,
        ⟨l, by simp, hl⟩, by simp [looks]⟩

theorem forceStop_ensures (c : Controller) (name : String) :
    Ensures (c.forceStop name) fun trace (outcome, c') =>
      c'.state = outcome.state ∧ Forced name c.budgets trace outcome := by
  refine Ensures.bind (c.find_ensures name) ?_
  rintro first ⟨pid?, c₁⟩ ⟨hbudgets, l, rfl, rfl⟩
  cases hl : l.pid? with
  | none => exact Ensures.done ⟨rfl, .gone hl⟩
  | some pid =>
    obtain rfl := Lookup.eq_found_of_pid? hl
    apply Ensures.question
    intro sent
    refine Ensures.bind (waitForExit_ensures ..) ?_
    rintro second ⟨gone, c₂⟩ ⟨hbudgets', results, rfl, hresults⟩
    have hbudgets₂ : c₂.budgets = c.budgets := hbudgets'.trans hbudgets
    rw [hbudgets] at hresults ⊢
    cases gone with
    | true =>
      obtain ⟨hlength, hlatest⟩ := hresults
      refine Ensures.done ⟨rfl, .quit pid sent results [] hlength ?_⟩
      simpa using hlatest
    | false =>
      obtain ⟨hlength, hfound⟩ := hresults
      refine Ensures.bind (c₂.find_ensures name) ?_
      rintro third ⟨pid'?, c₃⟩ ⟨hbudgets₃, l, rfl, rfl⟩
      cases hl' : l.pid? with
      | none =>
        have hlatest : Latest (results ++ [l]) none := ⟨l, by simp, hl'⟩
        exact Ensures.done ⟨rfl, .quit pid sent results [l] (Nat.le_of_eq hlength) hlatest⟩
      | some pid' =>
        obtain rfl := Lookup.eq_found_of_pid? hl'
        refine (c₃.kill_ensures name pid').mono ?_
        rintro fourth ⟨outcome, c₄⟩
          ⟨hstate, hended, sent', results', final, hlength', hlatest, rfl⟩
        rw [hbudgets₃, hbudgets₂] at hlength' ⊢
        refine ⟨hstate, ?_⟩
        simpa using Forced.kill pid sent results pid' sent' results' final hlength hfound hlength'
          hended hlatest

theorem quitGracefully_ensures (c : Controller) (name : String) (connection : Connection) :
    Ensures (c.quitGracefully name connection) fun trace (gone, c', _) =>
      c'.budgets = c.budgets ∧ Asking connection name c.budgets trace gone := by
  refine Ensures.bind connection.connect_ensures ?_
  rintro first ⟨connected, connection₁⟩ ⟨htried, rfl⟩
  cases connected with
  | false => exact Ensures.done ⟨rfl, by simpa using .unconnected htried⟩
  | true =>
    cases htried with
    | accepted token =>
      refine Ensures.question fun answer => Ensures.question fun _ => ?_
      cases answer with
      | error e =>
        exact Ensures.done ⟨rfl, .asked token (.error e) [] (Nat.zero_le _) nofun⟩
      | ok =>
        refine Ensures.bind (c.waitForExit_ensures ..) ?_
        rintro second ⟨gone, c₁⟩ ⟨hbudgets, results, rfl, hresults⟩
        refine Ensures.done ⟨hbudgets, ?_⟩
        rw [List.append_nil]
        cases gone with
        | true =>
          obtain ⟨hlength, hlatest⟩ := hresults
          exact .asked token (.ok ()) results hlength fun _ => ⟨rfl, hlatest⟩
        | false =>
          obtain ⟨hlength, -⟩ := hresults
          exact .asked token (.ok ()) results (Nat.le_of_eq hlength) nofun

/-- Every conversation that stops the worker has this grammar. -/
theorem terminate_ensures (c : Controller) (name : String) (connection : Connection) :
    Ensures (c.terminate name connection) fun trace (outcome, c', _) =>
      c'.state = outcome.state ∧ Stopping connection name c.budgets trace outcome := by
  refine Ensures.bind (c.find_ensures name) ?_
  rintro first ⟨pid?, c₁⟩ ⟨hbudgets, l, rfl, rfl⟩
  cases hl : l.pid? with
  | none => exact Ensures.done ⟨rfl, .absent hl⟩
  | some pid =>
    obtain rfl := Lookup.eq_found_of_pid? hl
    refine Ensures.bind (quitGracefully_ensures ..) ?_
    rintro second ⟨gone, c₂, connection₂⟩ ⟨hbudgets₂, hasking⟩
    rw [hbudgets] at hbudgets₂ hasking
    cases gone with
    | true => exact Ensures.done ⟨rfl, by simpa using .asked pid hasking⟩
    | false =>
      refine Ensures.bind (c₂.forceStop_ensures name) ?_
      rintro third ⟨outcome, c₃⟩ ⟨hstate, hforced⟩
      rw [hbudgets₂] at hforced
      exact Ensures.done ⟨hstate, by simpa using .forced pid hasking hforced⟩

end Controller

/-! ### What stopping asks -/

/-- An effect of stopping the worker. -/
def Effect.Stops : Effect → Prop
  | .lookUp _ => True
  | .signal _ _ => True
  | .sleep _ => True
  | .file (.readText _) => True
  | .channel (.connect _) => True
  | .channel (.call (.authenticate _)) => True
  | .channel (.call .quit) => True
  | .channel .close => True
  | _ => False

section Stopping

variable {connection : Connection} {name : String} {budgets : Config.Shutdown} {rate : Nat}
  {results : List Lookup} {trace : List (Exchange Effects)} {outcome : StopOutcome} {gone : Bool}

theorem stops_looks : ∀ e ∈ looks name results, e.op.Stops := by
  intro e he
  rw [op_of_mem_looks he]
  trivial

theorem stops_checks : ∀ e ∈ checks name rate results, e.op.Stops := by
  intro e he
  rcases op_of_mem_checks he with hop | hop
  · rw [hop]
    trivial
  · rw [hop]
    trivial

theorem Connection.Tried.stops {connected : Bool} (h : connection.Tried trace connected) :
    ∀ e ∈ trace, e.op.Stops := by
  cases h <;> simp [Effect.Stops, Connection.success]

theorem Asking.stops (h : Asking connection name budgets trace gone) :
    ∀ e ∈ trace, e.op.Stops := by
  cases h with
  | unconnected tried => exact tried.stops
  | asked token answer results bounded seen =>
    refine List.forall_mem_append.mpr ⟨List.forall_mem_append.mpr ⟨?_, ?_⟩, stops_checks⟩
    · exact (Connection.Tried.accepted token).stops
    · simp [Effect.Stops]

theorem Forced.stops (h : Forced name budgets trace outcome) : ∀ e ∈ trace, e.op.Stops := by
  cases h with
  | gone absent => simp [Effect.Stops]
  | quit pid sent results final bounded latest =>
    refine List.forall_mem_append.mpr ⟨by simp [Effect.Stops], ?_⟩
    exact List.forall_mem_append.mpr ⟨stops_checks, stops_looks⟩
  | kill pid sent results pid' sent' results' final full found bounded ended latest =>
    refine List.forall_mem_append.mpr ⟨List.forall_mem_append.mpr ⟨?_, by simp [Effect.Stops]⟩, ?_⟩
    · exact List.forall_mem_append.mpr ⟨by simp [Effect.Stops], stops_checks⟩
    · exact List.forall_mem_append.mpr ⟨stops_checks, stops_looks⟩

theorem Stopping.stops (h : Stopping connection name budgets trace outcome) :
    ∀ e ∈ trace, e.op.Stops := by
  cases h with
  | absent absent => simp [Effect.Stops]
  | asked pid asking => exact List.forall_mem_append.mpr ⟨by simp [Effect.Stops], asking.stops⟩
  | forced pid asking forced =>
    refine List.forall_mem_append.mpr ⟨?_, forced.stops⟩
    exact List.forall_mem_append.mpr ⟨by simp [Effect.Stops], asking.stops⟩

end Stopping

/-- Stopping the worker asks for nothing else. -/
theorem Controller.terminate_asks (c : Controller) (name : String) (connection : Connection) :
    Asks Effect.Stops (c.terminate name connection) := by
  refine (c.terminate_ensures name connection).mono ?_
  rintro trace ⟨outcome, c', connection'⟩ ⟨-, hstopping⟩
  exact hstopping.stops

end Overseer
