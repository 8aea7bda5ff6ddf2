import Overseer.Proofs.Line.Liveness
import Overseer.Proofs.Preparing.Phases

/-!
What it means that the worker is available.

An attempt that succeeds tells observers that the worker is installed, running and connected. The
last thing that it does before is to tell the worker about the host, and the answer to that is
ignored. A worker that answers, if only with an error, is connected indeed; after any other failure
the stream is given up, and the worker counts as available without a connection
(`available_alive_iff`).
-/

namespace Overseer

open Program

/-- How an attempt that succeeds ends: with what the worker is told about the host, whose answer
decides whether it is connected. -/
structure SetupPlan.EndsAvailable (plan : SetupPlan) (steps : List Carried) (a : Attempt)
    (s : Socket) : Prop where
  status : a.status.setup = .available
  told : ∃ before answer streams, steps = before ++
      [⟨⟨.channel (.call (.setHostInfo plan.host.model plan.host.osVersion)), answer⟩, streams⟩,
        ⟨⟨.post (.setup .available), ()⟩, []⟩] ∧
    (a.connection.AliveOver s ↔ FromWorker answer)

/-- Whatever the worker does during an attempt that succeeds: the connection is alive afterwards
exactly if the worker answered what it was told about the host. -/
theorem available_alive_iff {plan : SetupPlan} {a a' : Attempt} {s s' : Socket}
    {steps : List Carried} (run : OverSocket s (plan.run a) steps (true, a') s') :
    plan.EndsAvailable steps a' s' := by
  obtain ⟨hstatus, -, -⟩ := plan.run_ensures a run.follows
  obtain ⟨before, htold, rfl⟩ := (plan.run_leaves a run).2 rfl
  obtain ⟨first, answer, streams, rfl, hkept⟩ := htold.last
  refine ⟨hstatus rfl, first, answer, streams, by simp, ?_⟩
  rw [Connection.aliveOver_iff, hkept]
  exact and_iff_right htold.state_eq

/-! ### Two workers -/

/-- A worker that answers its first calls with these texts and then falls silent. -/
def silentAfter (responses : List String) : Peer := fun past _ op =>
  let asked := past.countP fun c =>
    match c.exchange.op with
    | .channel (.call _) => true
    | _ => false
  match op with
  | .connect _ => .ok 0
  | .clock => 0
  | .write _ _ _ => .ok ()
  | .read _ count _ =>
    match responses[asked]? with
    | none => .error .timedOut
    | some response =>
      let payload := response.toUTF8
      .ok (if count = Frame.headerLength then Frame.header payload.size else payload)
  | .close _ => ()

/-- The plan of a supervisor with the default configuration. -/
def firstPlan : SetupPlan := .ofConfig {} .arm64 ⟨"", ""⟩

/-- Its first attempt. -/
def firstAttempt : Attempt where
  controller := { budgets := Config.shutdown {} }
  connection := { address := (Config.worker {}).socket, tokenFile := (Config.worker {}).authFile }
  status := {}

/-- The first attempt against such a worker. -/
def attemptAgainst (responses : List String) : List Carried × (Bool × Attempt) × Socket :=
  carryOut (silentAfter responses) (fun _ => Effect.plain) [] {} (firstPlan.run firstAttempt)

theorem overSocket_attemptAgainst (responses : List String) :
    OverSocket {} (firstPlan.run firstAttempt) (attemptAgainst responses).1
      (attemptAgainst responses).2.1 (attemptAgainst responses).2.2 := by
  unfold attemptAgainst
  generalize firstPlan.run firstAttempt = action
  exact overSocket_carryOut _ _ [] {} action

/-- Accepts the token and gives preferences. -/
def welcome : List String := ["[\"ok\"]", "[\"preferences\",[false,true,0,0,100,false]]"]

/-- A worker that rejects what it is told stays connected. -/
theorem available_alive_iff_rejected :
    ∃ steps a s, OverSocket {} (firstPlan.run firstAttempt) steps (true, a) s ∧
      s.stream = some 0 ∧ firstPlan.EndsAvailable steps a s := by
  have hrun := overSocket_attemptAgainst (welcome ++ ["[\"error\",\"no\"]"])
  have hrejected : (attemptAgainst (welcome ++ ["[\"error\",\"no\"]"])).2.1.1 = true ∧
      (attemptAgainst (welcome ++ ["[\"error\",\"no\"]"])).2.2.stream = some 0 := by
    decide +kernel
  generalize attemptAgainst (welcome ++ ["[\"error\",\"no\"]"]) = run at hrun hrejected
  obtain ⟨steps, ⟨ok, a⟩, s⟩ := run
  obtain ⟨rfl, hstream⟩ := hrejected
  exact ⟨steps, a, s, hrun, hstream, available_alive_iff hrun⟩

/-- A worker that does not answer it in time counts as available, and is not connected. -/
theorem available_not_alive :
    ∃ steps a s, OverSocket {} (firstPlan.run firstAttempt) steps (true, a) s ∧
      a.status.setup = .available ∧ ¬a.connection.AliveOver s := by
  have hrun := overSocket_attemptAgainst welcome
  have hsilent : (attemptAgainst welcome).2.1.1 = true ∧
      (attemptAgainst welcome).2.1.2.status.setup = .available ∧
      (attemptAgainst welcome).2.2.stream = none := by
    decide +kernel
  generalize attemptAgainst welcome = run at hrun hsilent
  obtain ⟨steps, ⟨ok, a⟩, s⟩ := run
  obtain ⟨rfl, hstatus, hstream⟩ := hsilent
  exact ⟨steps, a, s, hrun, hstatus, Connection.not_aliveOver_of_stream hstream⟩

end Overseer
