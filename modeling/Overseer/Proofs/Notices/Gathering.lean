import Overseer.Proofs.Notices.Log
import Overseer.Proofs.Polling.Asked
import Overseer.Proofs.Polling.Reachable

/-!
What a turn does for the notices held.

A turn asks for notices at most once, and for those after the last one held. What arrives is
published with everything else that was read, or it is dropped and will be asked for again
(`Gathers`). Observers are told of what was read only when something is published. Every tick goes
one of these ways (`Poller.Ticked.gathers`), and so does every turn (`Session.Woken.gathers`).
-/

namespace Overseer

open Program

/-! ### Events about what was read -/

/-- An event that tells of what was read. -/
def StatusEvent.ofReading : StatusEvent → Bool
  | .setupChanged _ => false
  | _ => true

/-- The events by which changes tell of what was read. -/
def Snapshot.readings (s : Snapshot) (changes : List StatusChange) : List StatusEvent :=
  (s.announced changes).filter StatusEvent.ofReading

/-- The counts of notices that observers were told of. -/
def arrivalCounts (events : List StatusEvent) : List Nat :=
  events.filterMap fun
    | .newNotices count => some count
    | _ => none

/-- A change of the setup status tells of no reading. -/
theorem StatusChange.filter_event?_setup (s : Snapshot) (status : SetupStatus) :
    ((StatusChange.setup status).event? s).toList.filter StatusEvent.ofReading = [] := by
  by_cases hsame : s.setup = status
  · simp [event?, hsame]
  · simp [event?, hsame, StatusEvent.ofReading]

namespace Snapshot

theorem readings_append (s : Snapshot) (first second : List StatusChange) :
    s.readings (first ++ second) = s.readings first ++ (s.after first).readings second := by
  rw [readings, announced_append, List.filter_append]
  rfl

/-- What is told of readings does not depend on what was shown before. -/
theorem readings_congr (s s' : Snapshot) (changes : List StatusChange) :
    s.readings changes = s'.readings changes := by
  induction changes generalizing s s' with
  | nil => rfl
  | cons change rest ih =>
    have hevent : (change.event? s).toList.filter StatusEvent.ofReading
        = (change.event? s').toList.filter StatusEvent.ofReading := by
      cases change with
      | setup status => rw [StatusChange.filter_event?_setup, StatusChange.filter_event?_setup]
      | _ => rfl
    have hrest := ih (change.apply s) (change.apply s')
    simp only [readings, announced, List.filter_append] at hrest ⊢
    rw [hevent, hrest]

end Snapshot

/-! ### Conversations without notices -/

/-- Notices are neither asked for nor published. -/
structure Noticeless (trace : List (Exchange Effects)) : Prop where
  asks : noticeAsks trace = []
  readings : ∀ s : Snapshot, s.readings (posts trace) = []

/-- An effect that has nothing to do with notices. -/
def Effect.BesideNotices : Effect → Prop
  | .channel (.call (.getNotices _)) => False
  | .post (.publish _ _) => False
  | .post (.notices _) => False
  | _ => True

theorem noticeless_of_beside {trace : List (Exchange Effects)}
    (h : ∀ e ∈ trace, e.op.BesideNotices) : Noticeless trace where
  asks := by
    refine List.filterMap_eq_nil_iff.mpr fun e he => ?_
    split
    · exact (h _ (mem_channelled.mp he)).elim
    · rfl
  readings := by
    induction trace with
    | nil => exact fun _ => rfl
    | cons e rest ih =>
      obtain ⟨he, hrest⟩ := List.forall_mem_cons.mp h
      intro s
      have hhead : s.readings (posts [e]) = [] := by
        obtain ⟨op, answer⟩ := e
        cases op with
        | post change =>
          cases change with
          | publish read time => exact he.elim
          | notices count => exact he.elim
          | setup status =>
            have hevent := StatusChange.filter_event?_setup s status
            simpa [posts, Snapshot.readings, Snapshot.announced] using hevent
          | preferences preferences => rfl
          | computing computing => rfl
        | _ => rfl
      rw [← List.singleton_append, posts_append, Snapshot.readings_append, hhead, ih hrest]
      rfl

theorem noticeless_of_preparatory {trace : List (Exchange Effects)}
    (h : ∀ e ∈ trace, e.op.Preparatory) : Noticeless trace := by
  refine noticeless_of_beside fun e he => ?_
  obtain ⟨op, answer⟩ := e
  have hop := h _ he
  cases op with
  | channel op =>
    cases op with
    | call request => cases request <;> trivial
    | _ => trivial
  | post change => cases change <;> trivial
  | _ => trivial

theorem Effect.ReadsStatus.besideNotices {effect : Effect} (h : effect.ReadsStatus) :
    effect.BesideNotices := by
  unfold ReadsStatus at h
  split at h
  · trivial
  · trivial
  · trivial
  · exact h.elim

/-! ### Ticks -/

namespace Poller

theorem Looks.noticeless {trace : List (Exchange Effects)} (h : Looks trace) :
    Noticeless trace := by
  refine noticeless_of_beside fun e he => ?_
  rw [h e he]
  trivial

theorem Reports.noticeless {trace : List (Exchange Effects)} (h : Reports trace) :
    Noticeless trace := by
  obtain ⟨power, status, reported, rfl⟩ := h
  exact noticeless_of_beside (by simp [Effect.BesideNotices])

theorem minimalRead_noticeless (p : Poller) :
    Ensures p.minimalRead fun trace _ => Noticeless trace := by
  refine Ensures.mono p.minimalRead_asks fun trace _ htrace => ?_
  exact noticeless_of_beside fun e he => (htrace e he).besideNotices

/-- The ways in which a conversation goes on with the notices held, each with what was published of
the notices that arrived. -/
inductive Gathers (p : Poller) (trace : List (Exchange Effects)) (p' : Poller) :
    Option (List Notice) → Prop where
  | idle (noticeless : Noticeless trace) (kept : p'.status.worker = p.status.worker) :
      Gathers p trace p' none
  | dropped {answer} (asks : noticeAsks trace = [(p.status.latestSeqno, answer)])
      (readings : p.status.readings (posts trace) = [])
      (kept : p'.status.worker = p.status.worker) : Gathers p trace p' none
  | published {arrived} (asks : noticeAsks trace = [(p.status.latestSeqno, .ok arrived)])
      (readings : p.status.readings (posts trace) = .updated ::
        if 0 < arrived.length ∧ p'.notifyOnNotices then [.newNotices arrived.length] else [])
      (extended : p'.status.notices = (p.status.notices ++ arrived).rtake maxNotices) :
      Gathers p trace p' (some arrived)

/-- What has nothing to do with notices may come before. -/
theorem Gathers.prepend {p q p' : Poller} {first second : List (Exchange Effects)}
    {batch : Option (List Notice)} (h : q.Gathers second p' batch) (hfirst : Noticeless first)
    (hworker : q.status.worker = p.status.worker) : p.Gathers (first ++ second) p' batch := by
  have hseqno : q.status.latestSeqno = p.status.latestSeqno := by
    rw [Snapshot.latestSeqno, hworker]
    rfl
  have hnotices : q.status.notices = p.status.notices := by
    rw [Snapshot.notices, hworker]
    rfl
  have hasks : noticeAsks (first ++ second) = noticeAsks second := by
    rw [noticeAsks_append, hfirst.asks, List.nil_append]
  have hreadings : ∀ s : Snapshot, s.readings (posts (first ++ second))
      = q.status.readings (posts second) := by
    intro s
    rw [posts_append, Snapshot.readings_append, hfirst.readings, List.nil_append]
    exact Snapshot.readings_congr ..
  cases h with
  | idle noticeless kept =>
    refine .idle ⟨hasks.trans noticeless.asks, fun s => ?_⟩ (kept.trans hworker)
    rw [hreadings]
    exact noticeless.readings _
  | dropped asks readings kept =>
    exact .dropped (by rw [hasks, asks, hseqno]) (by rw [hreadings, readings])
      (kept.trans hworker)
  | published asks readings extended =>
    exact .published (by rw [hasks, asks, hseqno]) (by rw [hreadings, readings])
      (by rw [extended, hnotices])

/-- Settings make no difference. -/
theorem Gathers.of_retuned {p q p' : Poller} {trace : List (Exchange Effects)}
    {batch : Option (List Notice)} (hretuned : p.Retuned q) (h : q.Gathers trace p' batch) :
    p.Gathers trace p' batch := by
  have hnothing : Noticeless [] := ⟨rfl, fun _ => rfl⟩
  exact h.prepend hnothing (by rw [hretuned.frame.1])

theorem fullRead_gathers {p : Poller} (hheld : p.status.notices.length ≤ maxNotices) :
    Ensures p.fullRead fun trace (result, p') =>
      ∃ batch, p.Gathers trace p' batch ∧ (result = .ok () ↔ batch.isSome) := by
  refine (fullRead_ensures hheld).mono ?_
  rintro trace ⟨result, p'⟩ ⟨answers, hread⟩
  have hasks : noticeAsks trace = [(p.status.latestSeqno, answers.notices)] := by
    rw [noticeAsks, hread.asked]
    rfl
  have hnotify : p'.notifyOnNotices = p.notifyOnNotices := by
    rw [hread.framed]
  by_cases hcomplete : ∃ batch arrived, answers.Delivers batch arrived
  · obtain ⟨batch, arrived, hdelivers⟩ := hcomplete
    obtain ⟨hok, ⟨time, computing, hstatus⟩, hannounced⟩ := hread.published _ _ hdelivers
    refine ⟨some arrived, .published (by rw [hasks, hdelivers.notices]) ?_ ?_, by simp [hok]⟩
    · rw [Snapshot.readings, hannounced, hnotify]
      split <;> rfl
    · rw [hstatus]
      simp only [Snapshot.notices, maxNotices]
  · obtain ⟨missing, herror, -, -, ⟨computing, hstatus⟩, hannounced⟩ := hread.incomplete hcomplete
    refine ⟨none, .dropped hasks ?_ ?_, by simp [herror]⟩
    · rw [Snapshot.readings, hannounced]
      rfl
    · rw [hstatus]

theorem read_gathers {p : Poller} (hheld : p.status.notices.length ≤ maxNotices)
    (kind : ReadKind) :
    Ensures (p.read kind) fun trace (result, p') =>
      ∃ batch, p.Gathers trace p' batch ∧
        (result.map (fun () => TickOutcome.read kind) = .ok (.read .full) ↔ batch.isSome) := by
  cases kind with
  | minimal =>
    refine (p.minimalRead_noticeless.and p.minimalRead_ensures).mono ?_
    rintro trace ⟨result, p'⟩ ⟨hnoticeless, hworker⟩
    refine ⟨none, .idle hnoticeless hworker, ?_⟩
    cases result with
    | ok => simp [Except.map]
    | error e => simp [Except.map]
  | full =>
    refine (fullRead_gathers hheld).mono ?_
    rintro trace ⟨result, p'⟩ ⟨batch, hgathers, hresult⟩
    refine ⟨batch, hgathers, ?_⟩
    rw [← hresult]
    cases result with
    | ok => simp [Except.map]
    | error e => simp [Except.map]

/-- Every tick gathers notices in one of these ways, and publishes them exactly if its full read
succeeds. -/
theorem Ticked.gathers {p p' : Poller} {trace : List (Exchange Effects)}
    {outcome : Except TickError TickOutcome} (hheld : p.status.notices.length ≤ maxNotices)
    (h : p.Ticked trace outcome p') :
    ∃ batch, p.Gathers trace p' batch ∧ (outcome = .ok (.read .full) ↔ batch.isSome) := by
  cases h with
  | unready looked failed =>
    obtain ⟨hprepares, hsame, -⟩ := p.setUp_ensures failed
    have hsetup : p.Gathers _ p' none := .idle (noticeless_of_preparatory hprepares) hsame.worker
    exact ⟨none, hsetup.prepend looked.noticeless rfl, by simp⟩
  | @alive _ _ _ cadence kind _ _ looked reported answered =>
    obtain ⟨batch, hgathers, houtcome⟩ :=
      read_gathers (p := { p with cadence }) hheld kind answered
    have halive : p.Gathers _ p' batch := hgathers.prepend reported.noticeless rfl
    exact ⟨batch, halive.prepend looked.noticeless rfl, houtcome⟩
  | @ready _ _ _ _ q cadence kind _ _ looked prepared reported answered =>
    obtain ⟨hprepares, hsame, -⟩ := p.setUp_ensures prepared
    have hheld' : q.status.notices.length ≤ maxNotices := by
      rw [Snapshot.notices, hsame.worker]
      exact hheld
    obtain ⟨batch, hgathers, houtcome⟩ :=
      read_gathers (p := { q with cadence }) hheld' kind answered
    have hready : q.Gathers _ p' batch := hgathers.prepend reported.noticeless rfl
    have hset := hready.prepend (noticeless_of_preparatory hprepares) hsame.worker
    exact ⟨batch, hset.prepend looked.noticeless rfl, houtcome⟩

end Poller

/-! ### Turns -/

namespace Turn

/-- What observers are told in a turn of what was read. -/
def readings (t : Turn) : List StatusEvent := t.before.poller.status.readings (posts t.trace)

/-- The notices that arrived in a turn and were published, if any read was. -/
def batch? (t : Turn) : Option (List Notice) :=
  match noticeAsks t.trace, t.readings with
  | [(_, .ok arrived)], _ :: _ => some arrived
  | _, _ => none

end Turn

namespace Poller.Gathers

variable {t : Turn} {batch : Option (List Notice)}

theorem batch?_eq (h : t.before.poller.Gathers t.trace t.after.poller batch) :
    t.batch? = batch := by
  unfold Turn.batch? Turn.readings
  cases h with
  | idle noticeless kept => rw [noticeless.asks]
  | dropped asks readings kept =>
    rw [asks, readings]
    split
    · rename_i heq
      cases heq
    · rfl
  | published asks readings extended => rw [asks, readings]

/-- Notices are asked for after the last one held, if at all. -/
theorem asked (h : t.before.poller.Gathers t.trace t.after.poller batch) :
    (noticeAsks t.trace).map Prod.fst = [] ∨
      (noticeAsks t.trace).map Prod.fst = [t.before.poller.status.latestSeqno] := by
  cases h with
  | idle noticeless kept => exact .inl (by rw [noticeless.asks]; rfl)
  | dropped asks readings kept => exact .inr (by rw [asks]; rfl)
  | published asks readings extended => exact .inr (by rw [asks]; rfl)

end Poller.Gathers

/-- Every turn gathers notices in one of these ways. -/
theorem Session.Woken.gathers {s s' : Session} {trace : List (Exchange Effects)}
    (hheld : s.poller.status.notices.length ≤ maxNotices) (h : s.Woken trace s') :
    ∃ batch, s.poller.Gathers trace s'.poller batch := by
  obtain ⟨q, hretuned, ⟨rfl, rfl⟩ | ⟨outcome, hticked⟩⟩ := h
  · refine ⟨none, .idle ⟨rfl, fun _ => rfl⟩ ?_⟩
    rw [hretuned.frame.1]
  · rw [← hretuned.frame.1] at hheld
    obtain ⟨batch, hgathers, -⟩ := hticked.gathers hheld
    exact ⟨batch, hgathers.of_retuned hretuned⟩

end Overseer
