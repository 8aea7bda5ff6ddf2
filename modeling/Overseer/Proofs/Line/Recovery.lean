import Mathlib.Logic.Relation
import Overseer.Proofs.Line.Liveness
import Overseer.Proofs.Polling.Asked
import Overseer.Proofs.Polling.Derivation
import Overseer.Proofs.Preparing.Phases

/-!
Setting up is tried until it succeeds.

A tick sets up exactly if its connection is not alive when it starts. An attempt that fails leaves a
connection that is not alive and changes nothing else but the setup status, and a request that fails
on the way ends with such a connection as well; so the next tick sets up again, whatever settings
change in between. `failed_setup_recovers` is the main statement.
-/

namespace Overseer

open Program

variable {tokenFile : Path}

/-! ### Attempts that fail -/

namespace Poller

/-- An attempt that fails changes nothing but the setup status and what is known of the process and
of the connection. -/
theorem setUp_failed (p : Poller) :
    Ensures p.setUp fun _ (ok, p') => ok = false →
      p'.status = { p.status with setup := .error } ∧
        p' = { p with
          controller := p'.controller, connection := p'.connection, status := p'.status } := by
  refine Ensures.bind (p.plan.run_ensures _) ?_
  rintro trace ⟨ok, a⟩ ⟨-, hfailed, -⟩
  exact Ensures.done fun hok => ⟨hfailed hok, rfl⟩

/-- It leaves no stream if there was none. -/
theorem setUp_leaves {p p' : Poller} {s s' : Socket} {steps : List Carried}
    (hrun : OverSocket s p.setUp steps (false, p') s') (hstream : s.stream = none) :
    s'.stream = none := by
  obtain ⟨first, second, ⟨ok, a⟩, s₁, rfl, hfirst, hsecond⟩ := OverSocket.bind_iff.mp hrun
  cases hsecond
  exact (p.plan.run_leaves _ hfirst).1 rfl hstream

end Poller

/-- Changes that belong to setting up announce changes of the setup status only. -/
theorem Snapshot.announced_preparatory {changes : List StatusChange} (s : Snapshot)
    (h : ∀ change ∈ changes, (Effect.post change).Preparatory) :
    ∀ event ∈ s.announced changes, ∃ status, event = .setupChanged status := by
  induction changes generalizing s with
  | nil => simp [announced]
  | cons change rest ih =>
    obtain ⟨hchange, hrest⟩ := List.forall_mem_cons.mp h
    refine List.forall_mem_append.mpr ⟨?_, ih _ hrest⟩
    cases change with
    | setup status =>
      by_cases hsame : s.setup = status
      · simp [StatusChange.event?, hsame]
      · simp [StatusChange.event?, hsame]
    | preferences preferences => simp [StatusChange.event?]
    | publish read time => cases hchange
    | computing computing => cases hchange
    | notices count => cases hchange

/-! ### Ticks that set up -/

namespace Poller

/-- Before anything else the tick makes one attempt to set up. -/
def StartsWithSetup (p : Poller) (trace : List (Exchange Effects)) : Prop :=
  ∃ look setup rest ok q, trace = look ++ (setup ++ rest) ∧ Looks look ∧
    Follows p.setUp setup (ok, q)

/-- An attempt tells observers at once that it runs. -/
theorem setUp_starts (p : Poller) :
    Ensures p.setUp fun trace _ => ⟨.post (.setup .launching), ()⟩ ∈ trace := by
  refine Ensures.bind (p.plan.run_ensures _) ?_
  rintro trace ⟨ok, a⟩ ⟨-, -, phases, rfl, -⟩
  exact Ensures.done (by simp [Phases.trace])

/-- A poll ends with a read, whether it succeeds or not. -/
theorem poll_outcome_ne (p : Poller) (force : Bool) :
    Ensures (p.poll force) fun _ (outcome, _) => outcome ≠ .ok .setupFailed := by
  refine (p.poll_ensures force).mono ?_
  rintro trace ⟨_, p'⟩ ⟨report, rest, cadence, kind, result, -, -, rfl, -⟩
  cases result with
  | ok => exact nofun
  | error e => exact nofun

/-- A tick over a socket, taken apart at its look at the connection. -/
theorem overSocket_tick {p p' : Poller} {force : Bool} {s s' : Socket} {steps : List Carried}
    {outcome : Except TickError TickOutcome}
    (h : OverSocket s (p.tick force) steps (outcome, p') s') :
    ∃ look rest, steps = look ++ rest ∧ Looks (look.map Carried.exchange) ∧
      ((p.connection.AliveOver s ∧ OverSocket s (p.poll force) rest (outcome, p') s') ∨
        (¬p.connection.AliveOver s ∧ ∃ setup more ok q s₁, rest = setup ++ more ∧
          OverSocket s p.setUp setup (ok, q) s₁ ∧
          (ok = false → outcome = .ok .setupFailed ∧ p' = q ∧ s' = s₁ ∧ more = []) ∧
          (ok = true → OverSocket s₁ (q.poll true) more (outcome, p') s'))) := by
  obtain ⟨look, rest, alive, s₀, rfl, hlook, hrest⟩ := OverSocket.bind_iff.mp h
  obtain ⟨hs₀, halive⟩ := Connection.overSocket_isAlive hlook
  rw [← Connection.aliveOver_iff] at halive
  rw [hs₀] at hrest
  refine ⟨look, rest, rfl, isAlive_ensures _ hlook.follows, ?_⟩
  cases alive with
  | true => exact .inl ⟨halive.mp rfl, hrest⟩
  | false =>
    obtain ⟨setup, more, ⟨ok, q⟩, s₁, rfl, hsetup, hmore⟩ := OverSocket.bind_iff.mp hrest
    have hdead : ¬p.connection.AliveOver s := fun h => Bool.false_ne_true (halive.mpr h)
    refine .inr ⟨hdead, setup, more, ok, q, s₁, rfl, hsetup, ?_⟩
    cases ok with
    | false =>
      cases hmore
      exact ⟨fun _ => ⟨rfl, rfl, rfl, rfl⟩, nofun⟩
    | true => exact ⟨nofun, fun _ => hmore⟩

/-- A tick sets up exactly if the connection is not alive when it starts. -/
theorem startsWithSetup_iff {p p' : Poller} {force : Bool} {s s' : Socket} {steps : List Carried}
    {outcome : Except TickError TickOutcome}
    (h : OverSocket s (p.tick force) steps (outcome, p') s') :
    p.StartsWithSetup (steps.map Carried.exchange) ↔ ¬p.connection.AliveOver s := by
  obtain ⟨look, rest, rfl, hlook, ⟨halive, hpoll⟩ | ⟨hdead, hsetup⟩⟩ := overSocket_tick h
  · refine iff_of_false ?_ (not_not_intro halive)
    rintro ⟨look', setup, more, ok, q, htrace, -, hsetup⟩
    have hmem : ⟨.post (.setup .launching), ()⟩ ∈ (look ++ rest).map Carried.exchange := by
      rw [htrace]
      simp [p.setUp_starts hsetup]
    rw [List.map_append, List.mem_append] at hmem
    rcases hmem with hmem | hmem
    · cases hlook _ hmem
    · exact p.poll_asks force hpoll.follows _ hmem
  · obtain ⟨setup, more, ok, q, s₁, rfl, hsetup, -⟩ := hsetup
    refine iff_of_true ?_ hdead
    exact ⟨_, _, more.map Carried.exchange, ok, q, by simp, hlook, hsetup.follows⟩

end Poller

/-! ### Requests that fail on the way -/

theorem OverSocket.exists_carries {α : Type} {action : Action α} {s s' : Socket}
    {steps : List Carried} {a : α} (h : OverSocket s action steps a s') {c : Carried}
    (hc : c ∈ steps) : ∃ s₁ s₂, Carries s₁ c s₂ := by
  induction h with
  | done s a => cases hc
  | ask step rest ih =>
    rcases List.mem_cons.mp hc with rfl | hc
    · exact ⟨_, _, step⟩
    · exact ih hc

/-- A call opens no connection. -/
theorem Carries.unopened {s s' : Socket} {request : Request}
    {answer : Except ChannelError request.Reply} {streams : List (Exchange Streams)}
    (h : Carries s ⟨⟨.channel (.call request), answer⟩, streams⟩ s') : opened? streams = none := by
  cases h with
  | beside h => exact absurd rfl (h _)
  | channel hperform =>
    have hcall := s.call_ensures request hperform
    cases hstream : s.stream with
    | none =>
      rw [hstream] at hcall
      rw [hcall.1]
      rfl
    | some stream =>
      rw [hstream] at hcall
      rcases hcall with ⟨response, hexchanged, -⟩ | ⟨hbroken, -⟩
      · exact hexchanged.opened?_eq_none
      · exact hbroken.unopened

/-- A step after which no connection was opened belongs to the newest one. -/
theorem mem_of_newest {history after past : List Carried} {c : Carried} {stream : StreamId}
    (hc : opened? c.streams = none) (hafter : ∀ later ∈ after, opened? later.streams = none)
    (h : newest (history ++ c :: after) = some (stream, past)) : c ∈ past := by
  induction after using List.reverseRecOn generalizing past with
  | nil =>
    rw [newest_concat_of_unopened hc] at h
    obtain ⟨⟨stream', past'⟩, -, heq⟩ := Option.map_eq_some_iff.mp h
    cases heq
    simp
  | append_singleton after last ih =>
    obtain ⟨hrest, hlast⟩ := List.forall_mem_append.mp hafter
    have hsplit : history ++ c :: (after ++ [last]) = (history ++ c :: after) ++ [last] := by simp
    rw [hsplit, newest_concat_of_unopened (hlast last (by simp))] at h
    obtain ⟨⟨stream', past'⟩, hnewest, heq⟩ := Option.map_eq_some_iff.mp h
    cases heq
    exact List.mem_append_left _ (ih hrest hnewest)

/-- A connection on which a request failed on the way is not alive. -/
theorem Settled.not_alive_of_failed {connection : Connection} {history after : List Carried}
    {s : Socket} {request : Request} {e : ChannelError} {streams : List (Exchange Streams)}
    (h : Settled tokenFile connection
      (history ++ ⟨⟨.channel (.call request), .error e⟩, streams⟩ :: after) s)
    (hcall : opened? streams = none) (hafter : ∀ later ∈ after, opened? later.streams = none)
    (hfailed : ¬e.ByWorker) : ¬connection.AliveOver s := by
  rintro ⟨steps, s', halive⟩
  obtain ⟨stream, past, hnewest, hunbroken, -⟩ := (h.alive_iff halive).mp rfl
  have hmem := mem_of_newest hcall hafter hnewest
  obtain ⟨response, streams', heq, -⟩ := (hunbroken _ hmem).answered request rfl
  simp only [Carried.mk.injEq, Exchange.mk.injEq, heq_eq_eq, true_and] at heq
  exact hfailed (byWorker_of_judge heq.1.symm)

/-! ### Recovery -/

namespace Poller

/-- The poller after any number of changes of its settings. -/
def Adjusted : Poller → Poller → Prop := Relation.ReflTransGen Retuned

theorem Adjusted.connection_eq {p q : Poller} (h : p.Adjusted q) :
    q.connection = p.connection := by
  induction h with
  | refl => rfl
  | tail _ hretuned ih => exact hretuned.connection_eq.trans ih

/-- A tick whose attempt to set up failed. -/
structure FailsCleanly (p : Poller) (trace : List (Exchange Effects)) (p' : Poller) (s' : Socket) :
    Prop where
  dead : ¬p'.connection.AliveOver s'
  status_eq : p'.status = { p.status with setup := .error }
  /-- Nothing else changes but what is known of the worker's process and of the connection. -/
  frame : p' =
    { p with controller := p'.controller, connection := p'.connection, status := p'.status }
  lockCalls_eq : lockCalls trace = []
  /-- The device is not reported, and nothing is read but the preferences. -/
  requests : ∀ request answer, ⟨.channel (.call request), answer⟩ ∈ trace → request.Preparatory
  announced : ∀ event ∈ p.status.announced (posts trace), ∃ status, event = .setupChanged status

/-- What a tick over a socket does about a connection that is not alive. -/
structure Recovers (p : Poller) (s : Socket) (steps : List Carried)
    (outcome : Except TickError TickOutcome) (p' : Poller) (s' : Socket) : Prop where
  sets_up_iff : p.StartsWithSetup (steps.map Carried.exchange) ↔ ¬p.connection.AliveOver s
  clean : outcome = .ok .setupFailed → p.FailsCleanly (steps.map Carried.exchange) p' s'
  /-- A request that fails on the way leaves a connection that is not alive, unless the tick
  connects again. -/
  lost : ∀ before request e streams after,
    steps = before ++ ⟨⟨.channel (.call request), .error e⟩, streams⟩ :: after → ¬e.ByWorker →
      (∀ later ∈ after, opened? later.streams = none) → ¬p'.connection.AliveOver s'
  /-- The tick that follows sets up then, however the settings changed. -/
  again : ¬p'.connection.AliveOver s' →
    ∀ q force more outcome' q' s'', p'.Adjusted q →
      OverSocket s' (q.tick force) more (outcome', q') s'' →
        q.StartsWithSetup (more.map Carried.exchange)

theorem failsCleanly {p p' : Poller} {s s' : Socket} {setup : List Carried}
    (hstream : s.stream = none) (hsetup : OverSocket s p.setUp setup (false, p') s')
    {look : List (Exchange Effects)} (hlook : Looks look) :
    p.FailsCleanly (look ++ setup.map Carried.exchange) p' s' := by
  obtain ⟨hstatus, hframe⟩ := p.setUp_failed hsetup.follows rfl
  obtain ⟨hprepares, -, -⟩ := p.setUp_ensures hsetup.follows
  have htrace : ∀ e ∈ look ++ setup.map Carried.exchange, e.op.Preparatory := by
    refine List.forall_mem_append.mpr ⟨fun e he => ?_, hprepares⟩
    rw [hlook e he]
    trivial
  exact {
    dead := Connection.not_aliveOver_of_stream (setUp_leaves hsetup hstream)
    status_eq := hstatus
    frame := hframe
    lockCalls_eq := (idle_of_preparatory htrace).lockCalls
    requests := fun request answer hmem => htrace _ hmem
    announced := by
      refine p.status.announced_preparatory fun change hchange => ?_
      obtain ⟨⟨op, answer⟩, hmem, heq⟩ := List.mem_filterMap.mp hchange
      have hop := htrace _ hmem
      cases op <;> cases heq
      exact hop }

theorem tick_recovers {p p' : Poller} {force : Bool} {history steps : List Carried}
    {s s' : Socket} {outcome : Except TickError TickOutcome}
    (hsettled : Settled tokenFile p.connection history s)
    (h : OverSocket s (p.tick force) steps (outcome, p') s') :
    p.Recovers s steps outcome p' s' where
  sets_up_iff := startsWithSetup_iff h
  clean := by
    rintro rfl
    obtain ⟨look, rest, rfl, hlook, ⟨halive, hpoll⟩ | ⟨hdead, hsetup⟩⟩ := overSocket_tick h
    · exact absurd rfl (p.poll_outcome_ne force hpoll.follows)
    · obtain ⟨setup, more, ok, q, s₁, rfl, hsetup, hfailed, hready⟩ := hsetup
      cases ok with
      | false =>
        obtain ⟨-, rfl, rfl, rfl⟩ := hfailed rfl
        have hclean := failsCleanly (hsettled.stream_eq_none hdead) hsetup hlook
        simpa using hclean
      | true => exact absurd rfl (q.poll_outcome_ne true (hready rfl).follows)
  lost := by
    rintro before request e streams after rfl hfailed hafter
    have hend := holds_tick p force hsettled h
    obtain ⟨s₁, s₂, hcarries⟩ := h.exists_carries (List.mem_append_right _ List.mem_cons_self)
    rw [← List.append_assoc] at hend
    exact hend.not_alive_of_failed hcarries.unopened hafter hfailed
  again := by
    intro hdead q force' more outcome' q' s'' hadjusted hmore
    rw [startsWithSetup_iff hmore, hadjusted.connection_eq]
    exact hdead

end Poller

/-- In every run, and whatever the worker does: a failed setup is clean, and it is tried again. -/
theorem failed_setup_recovers {config : Config} {platform : Platform} {host : HostIdentity}
    {displayOn force : Bool} {timeout : Nat} {history steps : List Carried} {p p' : Poller}
    {s s' : Socket} {outcome : Except TickError TickOutcome}
    (run : (Poller.ofConfig config platform host displayOn).Operates { timeout } history p s)
    (tick : OverSocket s (p.tick force) steps (outcome, p') s') :
    p.Recovers s steps outcome p' s' := by
  have hsettled : Settled config.worker.authFile p.connection history s :=
    run.settled (settled_start (Poller.ofConfig config platform host displayOn).connection timeout)
  exact Poller.tick_recovers hsettled tick

/-- A worker that accepts the token but gives no preferences fails the first tick. -/
theorem failed_setup_recovers_first_tick :
    let start := Poller.ofConfig {} .arm64 ⟨"", ""⟩ true
    ∃ steps outcome p s, OverSocket {} (start.tick false) steps (outcome, p) s ∧
      outcome = .ok .setupFailed ∧ start.Recovers {} steps outcome p s := by
  intro start
  have hstart : start.Operates {} [] start {} := .start
  have hrun := overSocket_carryOut politePeer (fun _ => Effect.plain) [] {} (start.tick false)
  have houtcome : (carryOut politePeer (fun _ => Effect.plain) [] {} (start.tick false)).2.1.1
      = .ok .setupFailed := by
    decide +kernel
  generalize carryOut politePeer (fun _ => Effect.plain) [] {} (start.tick false) = run
    at hrun houtcome
  obtain ⟨steps, ⟨outcome, p⟩, s⟩ := run
  exact ⟨steps, outcome, p, s, hrun, houtcome, failed_setup_recovers hstart hrun⟩

end Overseer
