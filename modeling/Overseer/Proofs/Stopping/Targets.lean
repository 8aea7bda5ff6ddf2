import Overseer.Proofs.Polling.Views
import Overseer.Proofs.Stopping.Order

/-!
Which process is killed.

Stopping signals a process to quit, and kills it if it is still there when the budget of checks is
used up. But a process is known by its name only, and is looked up anew before every signal. If the
name has passed to another process in between, because the first one exited and another one remains
or appears, this other process is killed without having been asked to quit, and nothing else leads
to that (`killed_outright_iff`).
-/

namespace Overseer

open Program

/-- Among the signals sent, in order, one kills a process that none before it asked to quit. -/
def KilledOutright (sent : List (UInt32 × StopSignal)) (pid : UInt32) : Prop :=
  ∃ earlier later, sent = earlier ++ (pid, .kill) :: later ∧ (pid, .quit) ∉ earlier

def Effect.isSignal : Effect → Bool
  | .signal _ _ => true
  | _ => false

/-- What happens from the first signal on. -/
def fromSignal (trace : List (Exchange Effects)) : List (Exchange Effects) :=
  trace.dropWhile fun e => !e.op.isSignal

/-- The name passes to this process while another one, which was signalled to quit, is waited for:
the whole budget of checks finds some process, and the look-up after them finds this one. -/
structure Replaced (budgets : Config.Shutdown) (trace : List (Exchange Effects)) (pid : UInt32) :
    Prop where
  signalled : ∃ other, (signals trace).head? = some (other, .quit) ∧ other ≠ pid
  found : AllFound ((lookups (fromSignal trace)).take budgets.signalAttempts)
  last : (lookups (fromSignal trace))[budgets.signalAttempts]? = some (.found pid)

/-! ### Views -/

theorem not_killedOutright_nil (pid : UInt32) : ¬KilledOutright [] pid := by
  rintro ⟨earlier, later, hsent, -⟩
  simp at hsent

theorem not_killedOutright_quit (pid pid' : UInt32) : ¬KilledOutright [(pid', .quit)] pid := by
  rintro ⟨earlier, later, hsent, -⟩
  have hmem : (pid, StopSignal.kill) ∈ [(pid', StopSignal.quit)] := by simp [hsent]
  simp at hmem

/-- After one signal to quit, it is the other processes that are killed outright. -/
theorem killedOutright_pair_iff (first second pid : UInt32) :
    KilledOutright [(first, .quit), (second, .kill)] pid ↔ second = pid ∧ first ≠ pid := by
  constructor
  · rintro ⟨earlier, later, hsent, hunasked⟩
    obtain _ | ⟨quit, _ | ⟨kill, rest⟩⟩ := earlier
    · simp at hsent
    · obtain ⟨rfl, rfl, -⟩ : (first, StopSignal.quit) = quit ∧ second = pid ∧ [] = later := by
        simpa using hsent
      refine ⟨rfl, ?_⟩
      rintro rfl
      exact hunasked List.mem_cons_self
    · simp at hsent
  · rintro ⟨rfl, hne⟩
    exact ⟨[(first, .quit)], [], rfl, by simpa using hne.symm⟩

/-- What comes before any signal is left out. -/
theorem fromSignal_append {calm : List (Exchange Effects)} (h : signals calm = [])
    (rest : List (Exchange Effects)) : fromSignal (calm ++ rest) = fromSignal rest := by
  refine List.dropWhile_append_of_pos ?_
  rintro ⟨effect, answer⟩ he
  have hnone := List.filterMap_eq_nil_iff.mp h _ he
  cases effect <;> first | rfl | cases hnone

/-! ### A process that exits in time -/

/-- One of the look-ups that the budget allows after the first signal finds no process. -/
def SeenGone (budgets : Config.Shutdown) (trace : List (Exchange Effects)) : Prop :=
  ∃ l ∈ (lookups (fromSignal trace)).take (budgets.signalAttempts + 1), l.pid? = none

section Shown

variable {budgets : Config.Shutdown} {calm rest : List (Exchange Effects)} {pid : UInt32}

theorem seenGone_append_iff (h : signals calm = []) :
    SeenGone budgets (calm ++ rest) ↔ SeenGone budgets rest := by
  rw [SeenGone, fromSignal_append h, SeenGone]

theorem replaced_append_iff (h : signals calm = []) :
    Replaced budgets (calm ++ rest) pid ↔ Replaced budgets rest pid := by
  have hsignals : signals (calm ++ rest) = signals rest := by
    rw [signals_append, h, List.nil_append]
  constructor
  · rintro ⟨hsignalled, hfound, hlast⟩
    rw [hsignals] at hsignalled
    rw [fromSignal_append h] at hfound hlast
    exact ⟨hsignalled, hfound, hlast⟩
  · rintro ⟨hsignalled, hfound, hlast⟩
    refine ⟨?_, ?_, ?_⟩
    · rwa [hsignals]
    · rwa [fromSignal_append h]
    · rwa [fromSignal_append h]

theorem seenGone_of_lookups {signal : StopSignal} {sent : Bool} {l : Lookup}
    (hcalm : signals calm = []) (hl : l ∈ (lookups rest).take (budgets.signalAttempts + 1))
    (hnone : l.pid? = none) : SeenGone budgets (calm ++ ⟨.signal pid signal, sent⟩ :: rest) :=
  (seenGone_append_iff hcalm).mpr ⟨l, hl, hnone⟩

theorem Replaced.not_seenGone (h : Replaced budgets rest pid) : ¬SeenGone budgets rest := by
  rintro ⟨l, hmem, hnone⟩
  rw [List.take_add_one, h.last] at hmem
  rcases List.mem_append.mp hmem with hfound | hlast
  · have hsome := h.found l hfound
    simp [hnone] at hsome
  · rw [show l = .found pid by simpa using hlast] at hnone
    cases hnone

end Shown

namespace Controller

variable (c : Controller) (name : String)

/-- A signal to quit is only said to have sufficed if the process was seen to be gone in time. -/
theorem forceStop_seenGone :
    Ensures (c.forceStop name) fun trace (outcome, _) =>
      outcome = .quit → SeenGone c.budgets trace := by
  refine Ensures.bind (c.find_ensures name) ?_
  rintro first ⟨pid?, c₁⟩ ⟨hbudgets, l, rfl, rfl⟩
  cases hl : l.pid? with
  | none => exact Ensures.done nofun
  | some pid =>
    apply Ensures.question
    intro sent
    refine Ensures.bind (waitForExit_ensures ..) ?_
    rintro second ⟨gone, c₂⟩ ⟨-, results, rfl, hresults⟩
    rw [hbudgets] at hresults
    cases gone with
    | true =>
      obtain ⟨hlength, last, hlast, hnone⟩ := hresults
      refine Ensures.done fun _ => seenGone_of_lookups rfl (l := last) ?_ hnone
      rw [List.append_nil, lookups_checks, List.take_of_length_le (Nat.le_succ_of_le hlength)]
      exact List.mem_of_getLast? hlast
    | false =>
      obtain ⟨hlength, -⟩ := hresults
      refine Ensures.bind (c₂.find_ensures name) ?_
      rintro third ⟨pid'?, c₃⟩ ⟨-, l', rfl, rfl⟩
      cases hl' : l'.pid? with
      | none =>
        refine Ensures.done fun _ => seenGone_of_lookups rfl (l := l') ?_ hl'
        have hlookups : lookups (checks name c₁.budgets.signalRateMs results ++
            ([⟨.lookUp name, l'⟩] ++ [])) = results ++ [l'] := by
          rw [lookups_append, lookups_checks]
          rfl
        rw [hlookups, List.take_of_length_le (by simp [hlength])]
        simp
      | some pid' =>
        refine (c₃.kill_ensures name pid').mono ?_
        rintro fourth ⟨outcome, c₄⟩ ⟨-, hended, -⟩ rfl
        rcases hended with hkilled | ⟨survivor, hsurvived⟩
        · cases hkilled
        · cases hsurvived

theorem terminate_seenGone (connection : Connection) :
    Ensures (c.terminate name connection) fun trace (outcome, _) =>
      outcome = .quit → SeenGone c.budgets trace := by
  refine Ensures.bind (c.find_ensures name) ?_
  rintro first ⟨pid?, c₁⟩ ⟨hbudgets, l, rfl, rfl⟩
  cases hl : l.pid? with
  | none => exact Ensures.done nofun
  | some pid =>
    refine Ensures.bind (quitGracefully_ensures ..) ?_
    rintro second ⟨gone, c₂, connection₂⟩ ⟨hbudgets₂, hasking⟩
    cases gone with
    | true => exact Ensures.done nofun
    | false =>
      refine Ensures.bind (c₂.forceStop_seenGone name) ?_
      rintro third ⟨outcome, c₃⟩ hseen
      refine Ensures.done fun houtcome => ?_
      have hcalm : signals ([⟨.lookUp name, l⟩] ++ second) = [] := hasking.signals_eq_nil
      rw [List.append_nil, ← List.append_assoc, seenGone_append_iff hcalm, ← hbudgets, ← hbudgets₂]
      exact hseen houtcome

end Controller

/-! ### Every way of stopping -/

section Ways

variable {connection : Connection} {name : String} {budgets : Config.Shutdown}
  {trace : List (Exchange Effects)} {outcome : StopOutcome} {pid : UInt32}

theorem Forced.killedOutright_iff (h : Forced name budgets trace outcome)
    (hseen : outcome = .quit → SeenGone budgets trace) :
    KilledOutright (signals trace) pid ↔ Replaced budgets trace pid := by
  cases h with
  | gone absent =>
    refine iff_of_false (not_killedOutright_nil pid) ?_
    rintro ⟨⟨other, hfirst, -⟩, -, -⟩
    cases hfirst
  | quit first sent results final bounded latest =>
    have hsignals : signals ([⟨.lookUp name, .found first⟩, ⟨.signal first .quit, sent⟩]
        ++ (checks name budgets.signalRateMs results ++ looks name final)) = [(first, .quit)] := by
      rw [signals_append, (mild_checks.append mild_looks).signals_eq_nil]
      rfl
    rw [hsignals]
    exact iff_of_false (not_killedOutright_quit pid first) fun h => h.not_seenGone (hseen rfl)
  | kill first sent results second sent' results' final full found bounded ended latest =>
    let trace := [⟨.lookUp name, .found first⟩, ⟨.signal first .quit, sent⟩]
      ++ checks name budgets.signalRateMs results
      ++ [⟨.lookUp name, .found second⟩, ⟨.signal second .kill, sent'⟩]
      ++ (checks name budgets.signalRateMs results' ++ looks name final)
    have hsignals : signals trace = [(first, .quit), (second, .kill)] := by
      simp only [trace, signals_append, mild_checks.signals_eq_nil, mild_looks.signals_eq_nil]
      rfl
    have hlookups : lookups (fromSignal trace) =
        results ++ .found second :: (results' ++ final) := by
      have hstern : fromSignal trace = ⟨.signal first .quit, sent⟩ ::
          (checks name budgets.signalRateMs results
            ++ [⟨.lookUp name, .found second⟩, ⟨.signal second .kill, sent'⟩]
            ++ (checks name budgets.signalRateMs results' ++ looks name final)) := rfl
      rw [hstern, ← List.singleton_append]
      simp only [lookups_append, lookups_checks, lookups_looks]
      simp [lookups]
    rw [hsignals, killedOutright_pair_iff]
    constructor
    · rintro ⟨rfl, hne⟩
      refine ⟨⟨first, by rw [hsignals]; rfl, hne⟩, ?_, ?_⟩
      · rw [hlookups, ← full, List.take_left']
        · exact found
        · rfl
      · rw [hlookups, ← full]
        simp
    · rintro ⟨⟨other, hfirst, hne⟩, -, hlast⟩
      rw [hsignals] at hfirst
      rw [hlookups, ← full] at hlast
      obtain rfl : first = other := by simpa using hfirst
      exact ⟨by simpa using hlast, hne⟩

theorem Stopping.killedOutright_iff (h : Stopping connection name budgets trace outcome)
    (hseen : outcome = .quit → SeenGone budgets trace) :
    KilledOutright (signals trace) pid ↔ Replaced budgets trace pid := by
  have hcalm : ∀ {trace}, signals trace = [] →
      (KilledOutright (signals trace) pid ↔ Replaced budgets trace pid) := by
    intro trace hnone
    rw [hnone]
    refine iff_of_false (not_killedOutright_nil pid) ?_
    rintro ⟨⟨other, hfirst, -⟩, -, -⟩
    simp [hnone] at hfirst
  cases h with
  | absent absent => exact hcalm rfl
  | asked first asking => exact hcalm asking.signals_eq_nil
  | @forced first asked rest _ asking forced =>
    have hasked : signals ([⟨.lookUp name, .found first⟩] ++ asked) = [] := asking.signals_eq_nil
    rw [replaced_append_iff hasked, signals_append, hasked, List.nil_append]
    exact forced.killedOutright_iff fun houtcome => (seenGone_append_iff hasked).mp (hseen houtcome)

end Ways

/-- Whatever the process table shows at each look-up, and whatever else happens: exactly those
processes are killed without having been asked to quit to which the name has passed by then. -/
theorem killed_outright_iff (c : Controller) (name : String) (connection : Connection)
    (around : Surroundings Effects) (pid : UInt32) :
    let trace := ((c.terminate name connection).converse around []).1
    KilledOutright (signals trace) pid ↔ Replaced c.budgets trace pid := by
  have hensures : Ensures (c.terminate name connection) fun trace _ =>
      KilledOutright (signals trace) pid ↔ Replaced c.budgets trace pid := by
    refine ((c.terminate_ensures name connection).and
      (c.terminate_seenGone name connection)).mono ?_
    rintro trace ⟨outcome, c', connection'⟩ ⟨⟨-, hstopping⟩, hseen⟩
    exact hstopping.killedOutright_iff hseen
  exact hensures.converse around

/-- Two processes have the name of the worker, which cannot be reached. Each exits when it is
signalled. -/
def twoWorkers : Surroundings Effects
  | _, .channel (.connect _) => .error .notConnected
  | past, .lookUp _ =>
    match (signals past).length with
    | 0 => .found 7
    | 1 => .found 9
    | _ => .absent
  | _, effect => effect.plain

/-- The second one is killed, and nobody has asked it to quit. -/
theorem killed_outright_second :
    let c : Controller := { budgets := {} }
    let connection : Connection := { address := ⟨""⟩, tokenFile := ⟨""⟩ }
    let run := (c.terminate "worker" connection).converse twoWorkers []
    run.2.1 = .killed ∧ signals run.1 = [(7, .quit), (9, .kill)] ∧
      KilledOutright (signals run.1) 9 := by
  intro c connection run
  have hrun : run.2.1 = .killed ∧ signals run.1 = [(7, .quit), (9, .kill)] := by decide +kernel
  refine ⟨hrun.1, hrun.2, ?_⟩
  rw [hrun.2]
  exact (killedOutright_pair_iff 7 9 9).mpr ⟨rfl, by decide⟩

end Overseer
