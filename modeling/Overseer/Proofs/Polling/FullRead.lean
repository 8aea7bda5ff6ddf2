import Overseer.Proofs.Polling.Locking
import Overseer.Proofs.Polling.Setup

/-!
Full reads are published as a whole or not at all.

A full read asks all five of its questions, whatever fails. If every part is there, the next
snapshot shows exactly the parts of this read; otherwise the missing parts are named and the
snapshot stays, but for the computing flag, which needs the worker's status only.
`fullRead_whole_or_nothing` is the main statement. The history of notices keeps its bound because it
never starts over it: `Reachable.notices_length_le`.
-/

namespace Overseer

open Program

/-! ### Answers -/

namespace Answers

variable {a : Answers}

/-- The five calls of a full read with their answers, in order. -/
def calls (since : UInt64) (a : Answers) : List (Exchange Channel) :=
  [⟨.call .getStatus, a.status⟩, ⟨.call .getState, a.state⟩, ⟨.call .getTransfers, a.transfers⟩,
    ⟨.call .getAccountManager, a.accountManager⟩, ⟨.call (.getNotices since), a.notices⟩]

/-- All parts were answered, the state with its host. -/
structure Delivers (a : Answers) (batch : FullRead) (arrived : List Notice) : Prop where
  status : a.status = .ok batch.status
  state : a.state = .ok ⟨batch.tasks, batch.projects, some batch.host⟩
  transfers : a.transfers = .ok batch.transfers
  accountManager : a.accountManager = .ok batch.accountManager
  notices : a.notices = .ok arrived

/-- The parts of a full read, in the order in which missing ones are named. -/
def parts : List String :=
  ["status", "state", "state.host_info", "transfers", "acctMgrInfo", "notices"]

/-- The answers do not give this part. -/
inductive Lacks (a : Answers) : String → Prop where
  | status {e} (failed : a.status = .error e) : Lacks a "status"
  | state {e} (failed : a.state = .error e) : Lacks a "state"
  | host {tasks projects} (absent : a.state = .ok ⟨tasks, projects, none⟩) :
      Lacks a "state.host_info"
  | transfers {e} (failed : a.transfers = .error e) : Lacks a "transfers"
  | accountManager {e} (failed : a.accountManager = .error e) : Lacks a "acctMgrInfo"
  | notices {e} (failed : a.notices = .error e) : Lacks a "notices"

section Failed

variable {α : Type} {name part : String} {answer : Except ChannelError α}

theorem mem_failed : part ∈ failed name answer ↔ part = name ∧ ∃ e, answer = .error e := by
  cases answer with
  | ok reply => simp [failed]
  | error e => simp [failed]

theorem failed_sublist : (failed name answer).Sublist [name] := by
  cases answer with
  | ok reply => exact List.nil_sublist _
  | error e => exact List.Sublist.refl _

end Failed

theorem mem_hostMissing {part : String} {answer : Except ChannelError StateReport} :
    part ∈ hostMissing answer ↔
      part = "state.host_info" ∧ ∃ tasks projects, answer = .ok ⟨tasks, projects, none⟩ := by
  unfold hostMissing
  split
  · simp
  · rename_i hhost
    simp only [List.not_mem_nil, false_iff, not_and, not_exists]
    intro _ tasks projects hanswer
    exact hhost tasks projects hanswer

theorem hostMissing_sublist {answer : Except ChannelError StateReport} :
    (hostMissing answer).Sublist ["state.host_info"] := by
  unfold hostMissing
  split
  · exact List.Sublist.refl _
  · exact List.nil_sublist _

/-- Missing parts are named in order, each once. -/
theorem missing_sublist : a.missing.Sublist parts :=
  ((((failed_sublist.append failed_sublist).append hostMissing_sublist).append
    failed_sublist).append failed_sublist).append failed_sublist

theorem mem_missing {part : String} : part ∈ a.missing ↔ a.Lacks part := by
  simp only [missing, List.mem_append, mem_failed, mem_hostMissing]
  constructor
  · rintro (((((⟨rfl, e, h⟩ | ⟨rfl, e, h⟩) | ⟨rfl, tasks, projects, h⟩) | ⟨rfl, e, h⟩) |
      ⟨rfl, e, h⟩) | ⟨rfl, e, h⟩)
    · exact .status h
    · exact .state h
    · exact .host h
    · exact .transfers h
    · exact .accountManager h
    · exact .notices h
  · intro h
    cases h with
    | status h => exact .inl (.inl (.inl (.inl (.inl ⟨rfl, _, h⟩))))
    | state h => exact .inl (.inl (.inl (.inl (.inr ⟨rfl, _, h⟩))))
    | host h => exact .inl (.inl (.inl (.inr ⟨rfl, _, _, h⟩)))
    | transfers h => exact .inl (.inl (.inr ⟨rfl, _, h⟩))
    | accountManager h => exact .inl (.inr ⟨rfl, _, h⟩)
    | notices h => exact .inr ⟨rfl, _, h⟩

variable {batch : FullRead} {arrived held : List Notice}

theorem Delivers.assemble_eq (h : a.Delivers batch arrived) :
    a.assemble held
      = some ({ batch with notices := appendNotices held arrived }, arrived.length) := by
  obtain ⟨status, state, transfers, accountManager, notices⟩ := a
  obtain ⟨rfl, rfl, rfl, rfl, rfl⟩ := h
  rfl

/-- Answers deliver one batch only, up to the history that it is published with. -/
theorem Delivers.unique {batch' : FullRead} {arrived' : List Notice} (h : a.Delivers batch arrived)
    (h' : a.Delivers batch' arrived') :
    arrived' = arrived ∧ { batch' with notices := held } = { batch with notices := held } := by
  obtain ⟨status, state, transfers, accountManager, notices⟩ := a
  obtain ⟨status', tasks', projects', transfers', host', accountManager', notices'⟩ := batch'
  obtain ⟨rfl, rfl, rfl, rfl, rfl⟩ := h
  obtain ⟨⟨⟩, ⟨⟩, ⟨⟩, ⟨⟩, ⟨⟩⟩ := h'
  exact ⟨rfl, rfl⟩

/-- Only complete answers make a full read. -/
theorem exists_delivers_of_assemble {made : FullRead × Nat} (h : a.assemble held = some made) :
    ∃ batch arrived, a.Delivers batch arrived := by
  unfold assemble at h
  split at h
  · rename_i status tasks projects host transfers accountManager arrived
    exact ⟨⟨status, tasks, projects, transfers, host, accountManager, []⟩, arrived,
      ⟨rfl, rfl, rfl, rfl, rfl⟩⟩
  · cases h

end Answers

/-! ### The history of notices -/

/-- Within its bound, the history after a read is the end of all notices. -/
theorem appendNotices_eq_rtake {held : List Notice} (hheld : held.length ≤ maxNotices)
    (arrived : List Notice) : appendNotices held arrived = (held ++ arrived).rtake maxNotices := by
  unfold appendNotices
  cases arrived with
  | nil => simp [List.rtake, Nat.sub_eq_zero_of_le hheld]
  | cons first rest => simp [List.rtake]

/-! ### One full read -/

namespace Poller

/-- What a full read comes to: the questions it asks, what it makes of the answers to them, and all
that it changes. -/
structure ReadsWhole (p : Poller) (answers : Answers) (trace : List (Exchange Effects))
    (result : Except TickError Unit) (p' : Poller) : Prop where
  asked : channelled trace = answers.calls p.status.latestSeqno
  told : p'.status = p.status.after (posts trace)
  framed : p' = { p with locks := p'.locks, status := p'.status }
  published : ∀ batch arrived, answers.Delivers batch arrived →
    result = .ok () ∧
      (∃ time computing, p'.status =
        { p.status with
          worker := some { batch with notices := (p.status.notices ++ arrived).rtake 256 }
          updatedAt := some time
          computing }) ∧
      p.status.announced (posts trace) = .updated ::
        if 0 < arrived.length ∧ p.notifyOnNotices then [.newNotices arrived.length] else []
  incomplete : (¬∃ batch arrived, answers.Delivers batch arrived) →
    ∃ missing, result = .error (.incomplete missing) ∧ missing.Sublist Answers.parts ∧
      (∀ part, part ∈ missing ↔ answers.Lacks part) ∧
      (∃ computing, p'.status = { p.status with computing }) ∧
      p.status.announced (posts trace) = []

theorem ask_ensures (since : UInt64) :
    Ensures (ask since) fun trace answers =>
      channelled trace = answers.calls since ∧ posts trace = [] := by
  refine Ensures.question fun status => Ensures.question fun state => ?_
  refine Ensures.question fun transfers => Ensures.question fun accountManager => ?_
  exact Ensures.question fun notices => Ensures.done ⟨rfl, rfl⟩

theorem publish_ensures (p : Poller) (read : FullRead) (arrived : Nat) :
    Ensures (p.publish read arrived) fun trace p' =>
      ∃ time, p' = { p with status := (StatusChange.publish read time).apply p.status } ∧
        channelled trace = [] ∧
        posts trace =
          .publish read time :: if p.notifyOnNotices then [.notices arrived] else [] := by
  refine Ensures.question fun time => Ensures.question fun _ => ?_
  by_cases hnotify : p.notifyOnNotices
  · simp only [if_pos hnotify]
    exact Ensures.question fun _ => Ensures.done ⟨time, rfl, rfl, rfl⟩
  · simp only [if_neg hnotify]
    exact Ensures.done ⟨time, rfl, rfl, rfl⟩

/-- What a full read does with the status alone: it decides on the locks. -/
def derive (p : Poller) : Except ChannelError RunStatus → Action Poller
  | .ok status => p.applyLocks status
  | .error _ => return p

/-- What it does with all answers: it publishes them if they are complete. -/
def conclude (p : Poller) (answers : Answers) : Action (Except TickError Unit × Poller) :=
  match answers.assemble p.status.notices with
  | none => return (.error (.incomplete answers.missing), p)
  | some (read, arrived) => do
    let p ← p.publish read arrived
    return (.ok (), p)

theorem fullRead_eq (p : Poller) :
    p.fullRead = ask p.status.latestSeqno >>= fun answers =>
      p.derive answers.status >>= fun p' => p'.conclude answers := by
  unfold fullRead
  congr 1
  funext answers
  cases answers.status with
  | ok status => rfl
  | error e => rfl

theorem derive_ensures (p : Poller) (answer : Except ChannelError RunStatus) :
    Ensures (p.derive answer) fun trace p' =>
      ∃ locks computing, p' = { p with locks, status := { p.status with computing } } ∧
        channelled trace = [] ∧ p'.status = p.status.after (posts trace) ∧
        p.status.announced (posts trace) = [] := by
  cases answer with
  | error e => exact Ensures.done ⟨p.locks, p.status.computing, rfl, rfl, rfl, rfl⟩
  | ok status =>
    refine (p.applyLocks_ensures status).mono ?_
    rintro trace p' ⟨hframe, hchannelled, hposts, -⟩
    rw [hposts]
    exact ⟨_, _, hframe, hchannelled, by rw [hframe]; rfl, rfl⟩

theorem conclude_incomplete {p : Poller} {answers : Answers}
    (hlacking : ¬∃ batch arrived, answers.Delivers batch arrived) :
    p.conclude answers = return (.error (.incomplete answers.missing), p) := by
  unfold conclude
  cases hassemble : answers.assemble p.status.notices with
  | none => rfl
  | some made => exact absurd (Answers.exists_delivers_of_assemble hassemble) hlacking

theorem conclude_ensures {p : Poller} {answers : Answers} {batch : FullRead}
    {arrived : List Notice} (hheld : p.status.notices.length ≤ maxNotices)
    (hdelivers : answers.Delivers batch arrived) :
    Ensures (p.conclude answers) fun trace (result, p') =>
      let read := { batch with notices := (p.status.notices ++ arrived).rtake maxNotices }
      ∃ time, result = .ok () ∧ channelled trace = [] ∧
        p' = { p with status := (StatusChange.publish read time).apply p.status } ∧
        posts trace =
          .publish read time :: if p.notifyOnNotices then [.notices arrived.length] else [] := by
  unfold conclude
  rw [hdelivers.assemble_eq, appendNotices_eq_rtake hheld]
  refine Ensures.bind (p.publish_ensures _ _) ?_
  rintro trace p' ⟨time, hpublished, hchannelled, hposts⟩
  refine Ensures.done ?_
  rw [List.append_nil]
  exact ⟨time, rfl, hchannelled, hpublished, hposts⟩

theorem announced_publish (s : Snapshot) (read : FullRead) (time : Timestamp) (arrived : Nat)
    (notify : Bool) :
    s.announced (.publish read time :: if notify then [.notices arrived] else [])
      = .updated :: if 0 < arrived ∧ notify then [.newNotices arrived] else [] := by
  cases notify with
  | false => simp [Snapshot.announced, StatusChange.event?]
  | true =>
    by_cases harrived : 0 < arrived
    · simp [Snapshot.announced, StatusChange.event?, harrived]
    · simp [Snapshot.announced, StatusChange.event?, harrived]

theorem fullRead_ensures {p : Poller} (hheld : p.status.notices.length ≤ maxNotices) :
    Ensures p.fullRead fun trace (result, p') =>
      ∃ answers, p.ReadsWhole answers trace result p' := by
  rw [fullRead_eq]
  refine Ensures.bind (ask_ensures _) ?_
  rintro first answers ⟨hasked, hfirst⟩
  refine Ensures.bind (p.derive_ensures answers.status) ?_
  rintro second p₁ ⟨locks, computing, hp₁, hsecond, htold, hannounced⟩
  have hheld₁ : p₁.status.notices.length ≤ maxNotices := by
    rw [hp₁]
    exact hheld
  by_cases hcomplete : ∃ batch arrived, answers.Delivers batch arrived
  · obtain ⟨batch, arrived, hdelivers⟩ := hcomplete
    refine (conclude_ensures hheld₁ hdelivers).mono ?_
    subst hp₁
    rintro third ⟨_, _⟩ ⟨time, rfl, hthird, rfl, hposts⟩
    have hchanges : posts (first ++ (second ++ third)) = posts second ++ posts third := by
      rw [posts_append, posts_append, hfirst, List.nil_append]
    refine ⟨answers, {
      asked := by simp [hasked, hsecond, hthird]
      told := by
        rw [hchanges, Snapshot.after_append, ← htold, hposts]
        cases p.notifyOnNotices <;> rfl
      framed := rfl
      published := ?_
      incomplete := fun hlacking => absurd ⟨batch, arrived, hdelivers⟩ hlacking }⟩
    intro batch' arrived' hdelivers'
    obtain ⟨rfl, hbatch⟩ := hdelivers.unique hdelivers'
    refine ⟨rfl, ⟨time, computing, ?_⟩, ?_⟩
    · rw [hbatch]
      rfl
    · rw [hchanges, Snapshot.announced_append, hannounced, hposts]
      exact announced_publish ..
  · rw [conclude_incomplete hcomplete]
    subst hp₁
    refine Ensures.done ⟨answers, ?_⟩
    have hchanges : posts (first ++ (second ++ [])) = posts second := by
      rw [posts_append, hfirst, List.nil_append, List.append_nil]
    exact {
      asked := by simp [hasked, hsecond]
      told := by rw [hchanges, htold]
      framed := rfl
      published := fun batch arrived hdelivers => absurd ⟨batch, arrived, hdelivers⟩ hcomplete
      incomplete := fun _ => ⟨answers.missing, rfl, Answers.missing_sublist,
        fun _ => Answers.mem_missing, ⟨computing, rfl⟩, by rw [hchanges, hannounced]⟩ }

end Poller

end Overseer
