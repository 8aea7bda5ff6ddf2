import Overseer.Poller
import Overseer.Proofs.Line.Standing
import Overseer.Proofs.Polling.FullRead
import Overseer.Proofs.Polling.Ticks

/-!
Every operation of a poller leaves its connection at rest.

The rules go along the program, from connecting over stopping and setting up to ticks and the final
shutdown. Where a part does nothing on the channel, its `Asks` lemma is all that is needed. What
stopping, installing and launching keep of a connection is stated once, for whatever is known of it
(`Kept`).
-/

namespace Overseer

open Program

variable {tokenFile : Path}

theorem StaysOutside.quiet {α : Type} {action : Action α} (h : StaysOutside action) :
    Asks Effect.Quiet action := by
  refine h.mono fun effect houtside => ?_
  cases effect with
  | channel op => cases houtside
  | _ => trivial

/-! ### Connecting -/

namespace Connection

/-- Closing ends at rest from wherever the connection stands. -/
theorem holds_giveUp (c : Connection) (htoken : c.tokenFile = tokenFile) :
    Holds (Tracks tokenFile) c.close fun c' => Settled tokenFile c' := by
  refine Holds.bind Overseer.holds_close fun _ => Holds.done fun history s hdown => ?_
  exact hdown.settled htoken

theorem holds_close (c : Connection) :
    Holds (Settled tokenFile c) c.close fun c' => Settled tokenFile c' := by
  refine Holds.of_fact (fun _ _ h => h.tokenFile_eq) fun htoken => ?_
  exact (c.holds_giveUp htoken).start fun _ _ h => h.held.tracks

/-- An attempt to connect ends at rest, whether it succeeds or not. -/
theorem holds_connect (c : Connection) :
    Holds (Settled tokenFile c) c.connect fun (_, c') => Settled tokenFile c' := by
  refine Holds.of_fact (fun _ _ h => h.tokenFile_eq) ?_
  rintro rfl
  have hopen := @Overseer.holds_connect c.tokenFile c.address
  refine Holds.bind (hopen.start fun _ _ h => h.held.tracks) fun opened => ?_
  cases opened with
  | error e => exact Holds.done fun history s hdown => hdown.settled rfl
  | ok =>
    refine Holds.bind holds_readToken fun reading => ?_
    cases reading with
    | error fault => exact Holds.bind (c.holds_giveUp rfl) fun _ => Holds.done fun _ _ h => h
    | ok token =>
      refine Holds.bind (holds_authenticate _) fun answer => ?_
      cases answer with
      | error e => exact Holds.bind (c.holds_giveUp rfl) fun _ => Holds.done fun _ _ h => h
      | ok => exact Holds.done fun history s hheld => ⟨rfl, hheld, fun _ => rfl⟩

theorem holds_connectAgain (c : Connection) (delay more : Nat) :
    Holds (Settled tokenFile c) (c.connectAgain delay more) fun (_, c') =>
      Settled tokenFile c' := by
  induction more generalizing c with
  | zero => exact c.holds_connect
  | succ more ih =>
    refine Holds.bind c.holds_connect ?_
    rintro ⟨connected, c'⟩
    cases connected with
    | true => exact Holds.done fun _ _ h => h
    | false => exact Holds.bind (holds_quiet (Asks.question trivial Asks.done)) fun _ => ih c'

end Connection

/-! ### Stopping -/

namespace Controller

variable (c : Controller) (name : String) (connection : Connection)

theorem holds_quitGracefully :
    Holds (Settled tokenFile connection) (c.quitGracefully name connection)
      fun (_, _, connection') => Settled tokenFile connection' := by
  refine Holds.bind connection.holds_connect ?_
  rintro ⟨connected, connection₁⟩
  cases connected with
  | false => exact Holds.done fun _ _ h => h
  | true =>
    refine Holds.bind (holds_request .quit) fun answer => ?_
    refine Holds.bind connection₁.holds_close fun connection₂ => ?_
    cases answer with
    | error e => exact Holds.done fun _ _ h => h
    | ok =>
      exact Holds.bind (holds_quiet (outside_waitForExit ..).quiet) fun _ =>
        Holds.done fun _ _ h => h

end Controller

/-- What is known of a connection and its socket, and kept by everything that happens outside the
channel and by asking the worker to quit. -/
structure Kept (known : Connection → Standing) : Prop where
  outside : ∀ {α : Type} (c : Connection) {action : Action α}, StaysOutside action →
    Holds (known c) action fun _ => known c
  quit : ∀ (controller : Controller) (name : String) (c : Connection),
    Holds (known c) (controller.quitGracefully name c) fun (_, _, c') => known c'

theorem kept_settled : Kept (Settled tokenFile) where
  outside := fun _ _ houtside => holds_quiet houtside.quiet
  quit := fun controller name c => controller.holds_quitGracefully name c

namespace Kept

variable {known : Connection → Standing}

/-- So it is kept while the worker is stopped, -/
theorem terminate (h : Kept known) (c : Controller) (name : String) (connection : Connection) :
    Holds (known connection) (c.terminate name connection)
      fun (_, _, connection') => known connection' := by
  refine Holds.bind (h.outside connection (c.outside_find name)) ?_
  rintro ⟨pid?, c₁⟩
  cases pid? with
  | none => exact Holds.done fun _ _ h => h
  | some pid =>
    refine Holds.bind (h.quit _ name connection) ?_
    rintro ⟨gone, c₂, connection₂⟩
    cases gone with
    | true => exact Holds.done fun _ _ h => h
    | false =>
      exact Holds.bind (h.outside connection₂ (c₂.outside_forceStop name)) fun _ =>
        Holds.done fun _ _ h => h

/-- and installed, -/
theorem install (h : Kept known) (plan : SetupPlan) (a : Attempt) :
    Holds (known a.connection) (plan.install a) fun (_, a') => known a'.connection := by
  have hreplace : Holds (known a.connection) (plan.replace a)
      fun (_, a') => known a'.connection := by
    refine Holds.bind (h.terminate ..) ?_
    rintro ⟨outcome, controller, connection⟩
    exact Holds.bind (h.outside connection (outside_files _)) fun _ => Holds.done fun _ _ h => h
  rw [SetupPlan.install_eq]
  by_cases hforce : plan.forceReinstall
  · rw [if_pos hforce]
    exact hreplace
  · rw [if_neg hforce]
    refine Holds.bind (h.outside a.connection (outside_files plan.installer.isCurrent)) ?_
    intro current
    cases current with
    | true => exact Holds.done fun _ _ h => h
    | false => exact hreplace

/-- and launched. -/
theorem ensureRunning (h : Kept known) (plan : SetupPlan) (a : Attempt) :
    Holds (known a.connection) (plan.ensureRunning a) fun (_, a') => known a'.connection := by
  refine Holds.bind (h.outside a.connection (Controller.outside_find ..)) ?_
  rintro ⟨pid?, c₁⟩
  cases pid? with
  | some pid => exact Holds.done fun _ _ h => h
  | none =>
    exact Holds.bind (h.outside a.connection (c₁.outside_launch ..)) fun _ =>
      Holds.done fun _ _ h => h

end Kept

/-! ### Setting up -/

namespace SetupPlan

variable (plan : SetupPlan) (a : Attempt)

theorem holds_introduce :
    Holds (Settled tokenFile a.connection) (plan.introduce a)
      fun (_, a') => Settled tokenFile a'.connection := by
  refine Holds.bind (holds_request .getPreferences) fun answer => ?_
  cases answer with
  | error e => exact Holds.bind a.connection.holds_close fun _ => Holds.done fun _ _ h => h
  | ok preferences =>
    refine Holds.bind (holds_quiet (Asks.question trivial fun _ => Asks.done _)) fun _ => ?_
    exact Holds.bind (holds_request _) fun _ => Holds.done fun _ _ h => h

theorem holds_steps :
    Holds (Settled tokenFile a.connection) (plan.steps a)
      fun (_, a') => Settled tokenFile a'.connection := by
  refine Holds.bind (kept_settled.install plan a) ?_
  rintro ⟨ok, a₁⟩
  cases ok with
  | false => exact Holds.done fun _ _ h => h
  | true =>
    refine Holds.bind (kept_settled.ensureRunning plan a₁) ?_
    rintro ⟨ok, a₂⟩
    cases ok with
    | false => exact Holds.done fun _ _ h => h
    | true =>
      refine Holds.bind (Connection.holds_connectAgain ..) ?_
      rintro ⟨connected, connection⟩
      cases connected with
      | false => exact Holds.done fun _ _ h => h
      | true => exact plan.holds_introduce { a₂ with connection }

theorem holds_run :
    Holds (Settled tokenFile a.connection) (plan.run a)
      fun (_, a') => Settled tokenFile a'.connection := by
  refine Holds.bind (holds_quiet (Asks.question trivial fun _ => Asks.done _)) fun status => ?_
  refine Holds.bind (plan.holds_steps { a with status }) ?_
  rintro ⟨ok, a₁⟩
  exact Holds.bind (holds_quiet (Asks.question trivial fun _ => Asks.done _)) fun _ =>
    Holds.done fun _ _ h => h

end SetupPlan

/-! ### Ticks -/

theorem quiet_locks {α : Type} (p : Program LockBackends α) :
    Asks Effect.Quiet (Action.locks p) :=
  asks_locks (fun _ => trivial) p

theorem quiet_post (s : Snapshot) (change : StatusChange) :
    Asks Effect.Quiet (Action.post s change) :=
  Asks.question trivial fun _ => Asks.done _

namespace Poller

variable (p : Poller)

theorem holds_setUp :
    Holds (Settled tokenFile p.connection) p.setUp
      fun (_, p') => Settled tokenFile p'.connection :=
  Holds.bind (p.plan.holds_run ⟨p.controller, p.connection, p.status⟩) fun _ =>
    Holds.done fun _ _ h => h

theorem holds_applyLocks (status : RunStatus) :
    Holds (Settled tokenFile p.connection) (p.applyLocks status)
      fun p' => Settled tokenFile p'.connection := by
  refine Holds.bind (holds_quiet (quiet_locks _)) fun locks => ?_
  exact Holds.bind (holds_quiet (quiet_post ..)) fun _ => Holds.done fun _ _ h => h

theorem holds_minimalRead :
    Holds (Settled tokenFile p.connection) p.minimalRead
      fun (_, p') => Settled tokenFile p'.connection := by
  refine Holds.bind (holds_request .getStatus) fun answer => ?_
  cases answer with
  | error e => exact Holds.done fun _ _ h => h
  | ok status => exact Holds.bind (p.holds_applyLocks status) fun _ => Holds.done fun _ _ h => h

theorem holds_ask (since : UInt64) :
    Holds (Settled tokenFile p.connection) (ask since)
      fun _ => Settled tokenFile p.connection := by
  refine Holds.bind (holds_request .getStatus) fun status => ?_
  refine Holds.bind (holds_request .getState) fun state => ?_
  refine Holds.bind (holds_request .getTransfers) fun transfers => ?_
  refine Holds.bind (holds_request .getAccountManager) fun accountManager => ?_
  exact Holds.bind (holds_request (.getNotices since)) fun _ => Holds.done fun _ _ h => h

theorem holds_publish (read : FullRead) (arrived : Nat) :
    Holds (Settled tokenFile p.connection) (p.publish read arrived)
      fun p' => Settled tokenFile p'.connection := by
  refine Holds.bind (holds_quiet (Asks.question trivial Asks.done)) fun time => ?_
  refine Holds.bind (holds_quiet (quiet_post ..)) fun status => ?_
  by_cases hnotify : p.notifyOnNotices
  · rw [if_pos hnotify]
    exact Holds.bind (holds_quiet (quiet_post ..)) fun _ => Holds.done fun _ _ h => h
  · rw [if_neg hnotify]
    exact Holds.done fun _ _ h => h

/-- A request that fails in the middle does not matter: the others may still be made. -/
theorem holds_fullRead :
    Holds (Settled tokenFile p.connection) p.fullRead
      fun (_, p') => Settled tokenFile p'.connection := by
  rw [fullRead_eq]
  refine Holds.bind (p.holds_ask _) fun answers => ?_
  have hderive : Holds (Settled tokenFile p.connection) (p.derive answers.status)
      fun p' => Settled tokenFile p'.connection := by
    cases answers.status with
    | error e => exact Holds.done fun _ _ h => h
    | ok status => exact p.holds_applyLocks status
  refine Holds.bind hderive fun p₁ => ?_
  unfold conclude
  cases answers.assemble p₁.status.notices with
  | none => exact Holds.done fun _ _ h => h
  | some made => exact Holds.bind (p₁.holds_publish ..) fun _ => Holds.done fun _ _ h => h

theorem holds_readFor (kind : ReadKind) :
    Holds (Settled tokenFile p.connection) (p.readFor kind)
      fun (_, p') => Settled tokenFile p'.connection := by
  cases kind with
  | minimal => exact Holds.bind p.holds_minimalRead fun _ => Holds.done fun _ _ h => h
  | full => exact Holds.bind p.holds_fullRead fun _ => Holds.done fun _ _ h => h

theorem holds_poll (force : Bool) :
    Holds (Settled tokenFile p.connection) (p.poll force)
      fun (_, p') => Settled tokenFile p'.connection := by
  rw [poll_eq]
  refine Holds.bind (holds_quiet (Asks.question trivial Asks.done)) fun power => ?_
  refine Holds.bind (holds_request _) fun report => ?_
  have hread : ∀ kind cadence, Holds (Settled tokenFile p.connection)
      (readFor { p with cadence } kind) fun (_, p') => Settled tokenFile p'.connection :=
    fun kind cadence => holds_readFor { p with cadence } kind
  exact hread _ _

theorem quiet_isAlive (c : Connection) : Asks Effect.Quiet c.isAlive := by
  unfold Connection.isAlive
  split
  · exact Asks.question trivial Asks.done
  · exact Asks.done _

/-- A tick, whatever fails in it. -/
theorem holds_tick (force : Bool) :
    Holds (Settled tokenFile p.connection) (p.tick force)
      fun (_, p') => Settled tokenFile p'.connection := by
  refine Holds.bind (holds_quiet (quiet_isAlive p.connection)) fun alive => ?_
  cases alive with
  | true => exact p.holds_poll force
  | false =>
    refine Holds.bind p.holds_setUp ?_
    rintro ⟨ok, p₁⟩
    cases ok with
    | false => exact Holds.done fun _ _ h => h
    | true => exact p₁.holds_poll true

theorem holds_shutdown :
    Holds (Settled tokenFile p.connection) p.shutdown
      fun p' => Settled tokenFile p'.connection := by
  refine Holds.bind p.connection.holds_close fun connection => ?_
  exact Holds.bind (holds_quiet (quiet_locks _)) fun _ => Holds.done fun _ _ h => h

end Poller

end Overseer
