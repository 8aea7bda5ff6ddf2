import Overseer.Proofs.Stopping.Conversation

/-!
The order in which stopping acts.

`Orderly` gathers what holds of every attempt to stop the worker: no signal without a look-up right
before it that found the process, no kill before the whole budget after the signal to quit was
waited in vain, no request to quit without a connection, and an outcome that agrees with the last
look-up. `terminate_orderly` is the main statement.
-/

namespace Overseer

open Program

/-! ### Rules on single steps -/

/-- A signal goes to the process that the look-up right before it found. -/
def Addressed (name : String) (before : List (Exchange Effects)) (e : Exchange Effects) : Prop :=
  ∀ pid signal, e.op = .signal pid signal →
    ∃ earlier, before = earlier ++ [⟨.lookUp name, .found pid⟩]

/-- A request to quit comes right after the connection was made. -/
def Connection.AsksConnected (c : Connection) (before : List (Exchange Effects))
    (e : Exchange Effects) : Prop :=
  e.op = .channel (.call .quit) → ∃ earlier token, before = earlier ++ c.success token

theorem Addressed.later {name : String} (history : List (Exchange Effects))
    {before : List (Exchange Effects)} {e : Exchange Effects} (h : Addressed name before e) :
    Addressed name (history ++ before) e := by
  intro pid signal hop
  obtain ⟨earlier, rfl⟩ := h pid signal hop
  exact ⟨history ++ earlier, by simp⟩

theorem Connection.AsksConnected.later {c : Connection} (history : List (Exchange Effects))
    {before : List (Exchange Effects)} {e : Exchange Effects} (h : c.AsksConnected before e) :
    c.AsksConnected (history ++ before) e := by
  intro hop
  obtain ⟨earlier, token, rfl⟩ := h hop
  exact ⟨history ++ earlier, token, by simp⟩

/-! ### Steps that no rule is about -/

/-- Neither a signal nor a request to quit. -/
def Effect.Mild (effect : Effect) : Prop :=
  (∀ pid signal, effect ≠ .signal pid signal) ∧ effect ≠ .channel (.call .quit)

/-- Steps that are all mild. -/
def Mild (trace : List (Exchange Effects)) : Prop := ∀ e ∈ trace, e.op.Mild

section Mild

variable {name : String} {rate : Nat} {results : List Lookup} {c : Connection}
  {trace : List (Exchange Effects)}

theorem Mild.addressed (h : Mild trace) : Throughout (Addressed name) trace :=
  .of_forall fun e he _ pid signal hop => absurd hop ((h e he).1 pid signal)

theorem Mild.asksConnected (h : Mild trace) : Throughout c.AsksConnected trace :=
  .of_forall fun e he _ hop => absurd hop (h e he).2

theorem Mild.signals_eq_nil (h : Mild trace) : signals trace = [] := by
  refine List.filterMap_eq_nil_iff.mpr fun e he => ?_
  split
  · exact absurd rfl ((h _ he).1 _ _)
  · rfl

theorem Mild.quits_eq_nil (h : Mild trace) : quits trace = [] := by
  refine List.filterMap_eq_nil_iff.mpr fun e he => ?_
  split
  · exact absurd rfl (h _ he).2
  · rfl

theorem mild_looks : Mild (looks name results) := by
  intro e he
  rw [op_of_mem_looks he]
  exact ⟨fun _ _ => nofun, nofun⟩

theorem mild_look (l : Lookup) : Mild [⟨.lookUp name, l⟩] := @mild_looks name [l]

theorem mild_checks : Mild (checks name rate results) := by
  intro e he
  rcases op_of_mem_checks he with hop | hop
  · rw [hop]
    exact ⟨fun _ _ => nofun, nofun⟩
  · rw [hop]
    exact ⟨fun _ _ => nofun, nofun⟩

theorem Mild.append {more : List (Exchange Effects)} (h : Mild trace) (hmore : Mild more) :
    Mild (trace ++ more) :=
  List.forall_mem_append.mpr ⟨h, hmore⟩

theorem Connection.mild_success (token : String) : Mild (c.success token) := by
  simp [Mild, Effect.Mild, Connection.success]

theorem Connection.Tried.mild {connected : Bool} (h : c.Tried trace connected) : Mild trace := by
  cases h with
  | unreachable e => simp [Mild, Effect.Mild]
  | tokenless fault => simp [Mild, Effect.Mild]
  | refused token e => simp [Mild, Effect.Mild]
  | accepted token => exact c.mild_success token

end Mild

/-! ### The laws -/

/-- No process of another name is looked for. -/
def LooksFor (name : String) (trace : List (Exchange Effects)) : Prop :=
  ∀ e ∈ trace, ∀ other, e.op = .lookUp other → other = name

/-- The signals that go with an outcome: none, one to quit, or one to quit and one to kill. -/
def Escalates : StopOutcome → List (UInt32 × StopSignal) → Prop
  | .notRunning, sent => sent = []
  | .graceful, sent => sent = []
  | .quit, sent => ∃ pid, sent = [(pid, .quit)]
  | .killed, sent => ∃ pid pid', sent = [(pid, .quit), (pid', .kill)]
  | .survived _, sent => ∃ pid pid', sent = [(pid, .quit), (pid', .kill)]

/-- Between the two signals the whole budget of checks was used up, and every look-up, the one
before the second signal included, still found a process. -/
def Patient (budgets : Config.Shutdown) (trace : List (Exchange Effects)) : Prop :=
  ∀ pid pid', signals trace = [(pid, .quit), (pid', .kill)] →
    ∃ before sent middle sent' after,
      trace = before ++ [⟨.signal pid .quit, sent⟩] ++ middle
          ++ [⟨.signal pid' .kill, sent'⟩] ++ after ∧
        sleeps middle = List.replicate budgets.signalAttempts budgets.signalRateMs ∧
        (lookups middle).length = budgets.signalAttempts + 1 ∧ AllFound (lookups middle)

/-- Pauses keep the rate and the budget of their phase: that of asking up to the first signal, and
that of signals from then on. -/
def Paced (budgets : Config.Shutdown) (trace : List (Exchange Effects)) : Prop :=
  ∃ calm stern, trace = calm ++ stern ∧ signals calm = [] ∧
    (∀ e ∈ stern.head?, ∃ pid signal, e.op = .signal pid signal) ∧
    (∃ n ≤ budgets.gracefulAttempts, sleeps calm = List.replicate n budgets.gracefulRateMs) ∧
    ∃ n ≤ 2 * budgets.signalAttempts, sleeps stern = List.replicate n budgets.signalRateMs

/-- What holds of every attempt to stop a worker. -/
structure Orderly (connection : Connection) (name : String) (budgets : Config.Shutdown)
    (trace : List (Exchange Effects)) (outcome : StopOutcome) (state : WorkerState) : Prop where
  looks_for : LooksFor name trace
  escalates : Escalates outcome (signals trace)
  addressed : Throughout (Addressed name) trace
  asks_once : (quits trace).length ≤ 1
  asks_connected : Throughout connection.AsksConnected trace
  patient : Patient budgets trace
  paced : Paced budgets trace
  /-- There is nothing to stop exactly when the first look-up finds nothing. -/
  absent_iff : outcome = .notRunning ↔ ∃ l, (lookups trace).head? = some l ∧ l.pid? = none
  /-- Then that look-up is all that happens. -/
  absent_only : outcome = .notRunning → ∃ l, trace = [⟨.lookUp name, l⟩]
  /-- The last look-up agrees with the outcome. -/
  latest : Latest (lookups trace) outcome.survivor?
  settled : state = outcome.state

section Waiting

variable {name : String}

theorem looksFor_looks {results : List Lookup} : LooksFor name (looks name results) := by
  intro e he other hop
  cases hop.symm.trans (op_of_mem_looks he)
  rfl

theorem looksFor_look (l : Lookup) : LooksFor name [⟨.lookUp name, l⟩] := @looksFor_looks name [l]

theorem looksFor_checks {rate : Nat} {results : List Lookup} :
    LooksFor name (checks name rate results) := by
  intro e he other hop
  rcases op_of_mem_checks he with hsleep | hlook
  · cases hop.symm.trans hsleep
  · cases hop.symm.trans hlook
    rfl

end Waiting

section Asking

variable {connection : Connection} {name : String} {budgets : Config.Shutdown}
  {trace : List (Exchange Effects)} {gone : Bool}

theorem Asking.signals_eq_nil (h : Asking connection name budgets trace gone) :
    signals trace = [] := by
  cases h with
  | unconnected tried => exact tried.mild.signals_eq_nil
  | asked token answer results bounded seen =>
    rw [signals_append, signals_append, mild_checks.signals_eq_nil,
      (connection.mild_success token).signals_eq_nil]
    rfl

theorem Asking.addressed (h : Asking connection name budgets trace gone) :
    Throughout (Addressed name) trace := by
  cases h with
  | unconnected tried => exact tried.mild.addressed
  | asked token answer results bounded seen =>
    refine .append (fun _ _ => .later _) (.append (fun _ _ => .later _)
      (connection.mild_success token).addressed ?_) mild_checks.addressed
    exact .of_forall (by simp [Addressed])

theorem Asking.quits_length_le (h : Asking connection name budgets trace gone) :
    (quits trace).length ≤ 1 := by
  cases h with
  | unconnected tried => simp [tried.mild.quits_eq_nil]
  | asked token answer results bounded seen =>
    rw [quits_append, quits_append, mild_checks.quits_eq_nil,
      (connection.mild_success token).quits_eq_nil]
    simp [quits]

theorem Asking.asksConnected (h : Asking connection name budgets trace gone) :
    Throughout connection.AsksConnected trace := by
  cases h with
  | unconnected tried => exact tried.mild.asksConnected
  | asked token answer results bounded seen =>
    refine .append (fun _ _ => .later _) (throughout_append.mpr
      ⟨(connection.mild_success token).asksConnected, ?_⟩) mild_checks.asksConnected
    refine throughout_cons.mpr ⟨fun _ => ⟨[], token, by simp⟩, throughout_cons.mpr ⟨nofun, ?_⟩⟩
    exact throughout_nil

theorem Asking.looksFor (h : Asking connection name budgets trace gone) : LooksFor name trace := by
  cases h with
  | unconnected tried => cases tried <;> simp [LooksFor]
  | asked token answer results bounded seen =>
    exact List.forall_mem_append.mpr ⟨by simp [Connection.success], looksFor_checks⟩

theorem Asking.sleeps_eq (h : Asking connection name budgets trace gone) :
    ∃ n ≤ budgets.gracefulAttempts, sleeps trace = List.replicate n budgets.gracefulRateMs := by
  cases h with
  | unconnected tried => exact ⟨0, Nat.zero_le _, by cases tried <;> rfl⟩
  | asked token answer results bounded seen =>
    refine ⟨results.length, bounded, ?_⟩
    rw [sleeps_append, sleeps_checks]
    rfl

/-- The look-ups of asking are those of waiting, so the last one saw the worker gone. -/
theorem Asking.latest (h : Asking connection name budgets trace true) :
    Latest (lookups trace) none := by
  cases h with
  | asked token answer results bounded seen =>
    rw [lookups_append, lookups_checks]
    exact (seen rfl).2

end Asking

section Forced

variable {name : String} {budgets : Config.Shutdown} {trace : List (Exchange Effects)}
  {outcome : StopOutcome}

theorem addressed_pair (pid : UInt32) (signal : StopSignal) (sent : Bool) :
    Throughout (Addressed name) [⟨.lookUp name, .found pid⟩, ⟨.signal pid signal, sent⟩] := by
  refine throughout_cons.mpr ⟨nofun, throughout_cons.mpr ⟨?_, throughout_nil⟩⟩
  intro pid' signal' hop
  cases hop
  exact ⟨[], rfl⟩

theorem Forced.addressed (h : Forced name budgets trace outcome) :
    Throughout (Addressed name) trace := by
  cases h with
  | gone absent => exact (mild_look _).addressed
  | quit pid sent results final bounded latest =>
    refine .append (fun _ _ => .later _) (addressed_pair pid .quit sent) ?_
    exact (mild_checks.append mild_looks).addressed
  | kill pid sent results pid' sent' results' final full found bounded ended latest =>
    refine .append (fun _ _ => .later _) ?_ (mild_checks.append mild_looks).addressed
    refine .append (fun _ _ => .later _) ?_ (addressed_pair pid' .kill sent')
    exact .append (fun _ _ => .later _) (addressed_pair pid .quit sent) mild_checks.addressed

theorem Forced.quits_eq_nil (h : Forced name budgets trace outcome) : quits trace = [] := by
  cases h with
  | gone absent => rfl
  | quit pid sent results final bounded latest =>
    rw [quits_append, (mild_checks.append mild_looks).quits_eq_nil]
    rfl
  | kill pid sent results pid' sent' results' final full found bounded ended latest =>
    rw [quits_append, quits_append, quits_append, (mild_checks.append mild_looks).quits_eq_nil,
      mild_checks.quits_eq_nil]
    rfl

theorem Forced.asksConnected {c : Connection} (h : Forced name budgets trace outcome) :
    Throughout c.AsksConnected trace := by
  have hquits := h.quits_eq_nil
  refine .of_forall fun e he _ hop => ?_
  obtain ⟨effect, answer⟩ := e
  cases hop
  have hmem : answer ∈ quits trace := List.mem_filterMap.mpr ⟨_, he, rfl⟩
  simp [hquits] at hmem

theorem Forced.looksFor (h : Forced name budgets trace outcome) : LooksFor name trace := by
  cases h with
  | gone absent => simp [LooksFor]
  | quit pid sent results final bounded latest =>
    refine List.forall_mem_append.mpr ⟨by simp, ?_⟩
    exact List.forall_mem_append.mpr ⟨looksFor_checks, looksFor_looks⟩
  | kill pid sent results pid' sent' results' final full found bounded ended latest =>
    refine List.forall_mem_append.mpr ⟨List.forall_mem_append.mpr ⟨?_, by simp⟩, ?_⟩
    · exact List.forall_mem_append.mpr ⟨by simp, looksFor_checks⟩
    · exact List.forall_mem_append.mpr ⟨looksFor_checks, looksFor_looks⟩

theorem Forced.escalates (h : Forced name budgets trace outcome) :
    Escalates outcome (signals trace) := by
  cases h with
  | gone absent => rfl
  | quit pid sent results final bounded latest =>
    rw [signals_append, (mild_checks.append mild_looks).signals_eq_nil]
    exact ⟨pid, rfl⟩
  | kill pid sent results pid' sent' results' final full found bounded ended latest =>
    rw [signals_append, signals_append, signals_append,
      (mild_checks.append mild_looks).signals_eq_nil, mild_checks.signals_eq_nil]
    rcases ended with rfl | ⟨survivor, rfl⟩
    · exact ⟨pid, pid', rfl⟩
    · exact ⟨pid, pid', rfl⟩

theorem Forced.latest (h : Forced name budgets trace outcome) :
    Latest (lookups trace) outcome.survivor? := by
  cases h with
  | gone absent => exact ⟨_, rfl, absent⟩
  | quit pid sent results final bounded latest =>
    rw [lookups_append, lookups_append, lookups_checks, lookups_looks]
    exact latest.append _
  | kill pid sent results pid' sent' results' final full found bounded ended latest =>
    rw [lookups_append, lookups_append (checks ..), lookups_checks, lookups_looks]
    exact latest.append _

/-- Signals split stopping by force into the look-up before the first one and the rest. -/
theorem Forced.paced (h : Forced name budgets trace outcome) :
    ∃ calm stern, trace = calm ++ stern ∧ signals calm = [] ∧
      (∀ e ∈ stern.head?, ∃ pid signal, e.op = .signal pid signal) ∧ sleeps calm = [] ∧
      ∃ n ≤ 2 * budgets.signalAttempts, sleeps stern = List.replicate n budgets.signalRateMs := by
  cases h with
  | @gone l absent => exact ⟨[⟨.lookUp name, l⟩], [], rfl, rfl, by simp, rfl, 0, by simp, rfl⟩
  | quit pid sent results final bounded latest =>
    refine ⟨[⟨.lookUp name, .found pid⟩], [⟨.signal pid .quit, sent⟩]
      ++ (checks name budgets.signalRateMs results ++ looks name final), by simp, rfl, by simp, rfl,
      results.length, by omega, ?_⟩
    rw [sleeps_append, sleeps_append, sleeps_checks, sleeps_looks, List.append_nil]
    rfl
  | kill pid sent results pid' sent' results' final full found bounded ended latest =>
    refine ⟨[⟨.lookUp name, .found pid⟩], [⟨.signal pid .quit, sent⟩]
      ++ checks name budgets.signalRateMs results
      ++ [⟨.lookUp name, .found pid'⟩, ⟨.signal pid' .kill, sent'⟩]
      ++ (checks name budgets.signalRateMs results' ++ looks name final), by simp, rfl, by simp,
      rfl, results.length + results'.length, by omega, ?_⟩
    simp only [sleeps_append, sleeps_checks, sleeps_looks, List.append_nil]
    simp [sleeps, List.replicate_append_replicate]

end Forced

section Stopping

variable {connection : Connection} {name : String} {budgets : Config.Shutdown}
  {trace : List (Exchange Effects)} {outcome : StopOutcome}

theorem Forced.patient (h : Forced name budgets trace outcome) {earlier : List (Exchange Effects)}
    (hearlier : signals earlier = []) : Patient budgets (earlier ++ trace) := by
  intro p p' hsignals
  rw [signals_append, hearlier, List.nil_append] at hsignals
  have hescalates := h.escalates
  rw [hsignals] at hescalates
  cases h with
  | gone absent => cases hescalates
  | quit pid sent results final bounded latest =>
    obtain ⟨_, hquit⟩ := hescalates
    cases hquit
  | kill pid sent results pid' sent' results' final full found bounded ended latest =>
    rw [signals_append, signals_append, signals_append,
      (mild_checks.append mild_looks).signals_eq_nil, mild_checks.signals_eq_nil] at hsignals
    obtain ⟨rfl, rfl⟩ : pid = p ∧ pid' = p' := by simpa [signals] using hsignals
    refine ⟨earlier ++ [⟨.lookUp name, .found pid⟩], sent, checks name budgets.signalRateMs results
      ++ [⟨.lookUp name, .found pid'⟩], sent',
      checks name budgets.signalRateMs results' ++ looks name final, by simp, ?_, ?_, ?_⟩
    · rw [sleeps_append, sleeps_checks, full]
      simp [sleeps]
    · rw [lookups_append, lookups_checks, List.length_append, full]
      rfl
    · rw [lookups_append, lookups_checks]
      exact List.forall_mem_append.mpr ⟨found, by simp [lookups, Lookup.pid?]⟩

theorem Forced.outcome_ne (h : Forced name budgets trace outcome) : outcome ≠ .notRunning := by
  cases h with
  | gone absent => nofun
  | quit pid sent results final bounded latest => nofun
  | kill pid sent results pid' sent' results' final full found bounded ended latest =>
    rcases ended with rfl | ⟨survivor, rfl⟩
    · nofun
    · nofun

theorem orderly_of_absent {l : Lookup} (absent : l.pid? = none) :
    Orderly connection name budgets [⟨.lookUp name, l⟩] .notRunning .notRunning where
  looks_for := looksFor_look l
  escalates := rfl
  addressed := (mild_look l).addressed
  asks_once := Nat.zero_le _
  asks_connected := (mild_look l).asksConnected
  patient := nofun
  paced := ⟨[⟨.lookUp name, l⟩], [], rfl, rfl, by simp, ⟨0, by simp, rfl⟩, 0, by simp, rfl⟩
  absent_iff := ⟨fun _ => ⟨l, rfl, absent⟩, fun _ => rfl⟩
  absent_only := fun _ => ⟨l, rfl⟩
  latest := ⟨l, rfl, absent⟩
  settled := rfl

theorem Asking.orderly (h : Asking connection name budgets trace true) (pid : UInt32) :
    Orderly connection name budgets ([⟨.lookUp name, .found pid⟩] ++ trace) .graceful
      .notRunning where
  looks_for := List.forall_mem_append.mpr ⟨looksFor_look _, h.looksFor⟩
  escalates := h.signals_eq_nil
  addressed := .append (fun _ _ => .later _) (mild_look _).addressed h.addressed
  asks_once := h.quits_length_le
  asks_connected := .append (fun _ _ => .later _) (mild_look _).asksConnected h.asksConnected
  patient := by
    intro p p' hkill
    cases h.signals_eq_nil.symm.trans hkill
  paced := ⟨[⟨.lookUp name, .found pid⟩] ++ trace, [], by simp, h.signals_eq_nil, by simp,
    h.sleeps_eq, 0, by simp, rfl⟩
  absent_iff := ⟨nofun, by simp [lookups, Lookup.pid?]⟩
  absent_only := nofun
  latest := h.latest.append [.found pid]
  settled := rfl

theorem Forced.orderly {rest : List (Exchange Effects)} (h : Forced name budgets rest outcome)
    (asking : Asking connection name budgets trace false) (pid : UInt32) :
    Orderly connection name budgets ([⟨.lookUp name, .found pid⟩] ++ trace ++ rest) outcome
      outcome.state := by
  have hcalm : signals ([⟨.lookUp name, .found pid⟩] ++ trace) = [] := asking.signals_eq_nil
  refine {
    looks_for := ?_
    escalates := ?_
    addressed := .append (fun _ _ => .later _) ?_ h.addressed
    asks_once := ?_
    asks_connected := .append (fun _ _ => .later _) ?_ h.asksConnected
    patient := h.patient hcalm
    paced := ?_
    absent_iff := ⟨fun houtcome => absurd houtcome h.outcome_ne, by simp [lookups, Lookup.pid?]⟩
    absent_only := fun houtcome => absurd houtcome h.outcome_ne
    latest := ?_
    settled := rfl }
  · refine List.forall_mem_append.mpr ⟨?_, h.looksFor⟩
    exact List.forall_mem_append.mpr ⟨looksFor_look _, asking.looksFor⟩
  · rw [signals_append, hcalm]
    exact h.escalates
  · exact .append (fun _ _ => .later _) (mild_look _).addressed asking.addressed
  · rw [quits_append, h.quits_eq_nil, List.append_nil]
    exact asking.quits_length_le
  · exact .append (fun _ _ => .later _) (mild_look _).asksConnected asking.asksConnected
  · -- The look-up before the first signal still belongs to the calm part.
    obtain ⟨n, hn, hasking⟩ := asking.sleeps_eq
    obtain ⟨calm, stern, rfl, hcalm', hhead, hsleeps, hstern⟩ := h.paced
    refine ⟨[⟨.lookUp name, .found pid⟩] ++ trace ++ calm, stern, by simp, ?_, hhead,
      ⟨n, hn, ?_⟩, hstern⟩
    · rw [signals_append, hcalm, hcalm']
      rfl
    · rw [sleeps_append, hsleeps, List.append_nil]
      exact hasking
  · rw [lookups_append]
    exact h.latest.append _

/-- Every way of stopping is orderly. -/
theorem Stopping.orderly (h : Stopping connection name budgets trace outcome) :
    Orderly connection name budgets trace outcome outcome.state := by
  cases h with
  | absent absent => exact orderly_of_absent absent
  | asked pid asking => exact asking.orderly pid
  | forced pid asking forced => exact forced.orderly asking pid

end Stopping

/-- Stopping ends in all surroundings, and in an orderly way: whatever the process table shows at
each look-up, whatever the channel does, and for all budgets. -/
theorem terminate_orderly (c : Controller) (name : String) (connection : Connection)
    (around : Surroundings Effects) :
    let run := (c.terminate name connection).converse around []
    Orderly connection name c.budgets run.1 run.2.1 run.2.2.1.state := by
  have hensures : Ensures (c.terminate name connection) fun trace result =>
      Orderly connection name c.budgets trace result.1 result.2.1.state := by
    refine (c.terminate_ensures name connection).mono ?_
    rintro trace ⟨outcome, c', _⟩ ⟨hstate, hstopping⟩
    rw [hstate]
    exact hstopping.orderly
  exact hensures.converse around

end Overseer
