import Overseer.Proofs.Polling.FullRead
import Overseer.Proofs.Polling.Ticks

/-!
The states that a poller comes to.

`Reachable` is closed under everything that a running poller does, one part of a tick at a time, so
it also holds of the states inside a tick. Ticks and commands stay within it (`Reachable.tick`,
`Reachable.handle`). The history of notices is bounded in all of them, which is what a full read
needs to publish the newest notices.
-/

namespace Overseer

open Program

/-- The states of a poller, between its ticks and inside them. -/
inductive Poller.Reachable : Poller → Prop where
  | start (config : Config) (platform : Platform) (host : HostIdentity) (displayOn : Bool) :
      Reachable (.ofConfig config platform host displayOn)
  | setUp {p p' trace ok} (hp : Reachable p) (h : Follows p.setUp trace (ok, p')) : Reachable p'
  | paced {p} (hp : Reachable p) (cadence : Cadence) : Reachable { p with cadence }
  | minimalRead {p p' trace result} (hp : Reachable p)
      (h : Follows p.minimalRead trace (result, p')) : Reachable p'
  | fullRead {p p' trace result} (hp : Reachable p)
      (h : Follows p.fullRead trace (result, p')) : Reachable p'
  | reconfigure {p} (hp : Reachable p) (polling : Config.Polling) :
      Reachable (p.reconfigure polling).2

namespace Poller

theorem minimalRead_ensures (p : Poller) :
    Ensures p.minimalRead fun _ (_, p') => p'.status.worker = p.status.worker := by
  apply Ensures.question
  intro answer
  cases answer with
  | error e => exact Ensures.done rfl
  | ok status =>
    refine Ensures.bind (p.applyLocks_ensures status) ?_
    rintro trace p' ⟨hframe, -⟩
    refine Ensures.done ?_
    rw [hframe]

end Poller

namespace Poller.Reachable

variable {p : Poller}

/-- The history of notices never grows over its bound. -/
theorem notices_length_le (hp : p.Reachable) : p.status.notices.length ≤ maxNotices := by
  induction hp with
  | start config platform host displayOn => exact Nat.zero_le _
  | setUp hp h ih =>
    obtain ⟨-, hsame, -⟩ := setUp_ensures _ h
    rw [Snapshot.notices, hsame.worker]
    exact ih
  | paced hp cadence ih => exact ih
  | minimalRead hp h ih =>
    rw [Snapshot.notices, minimalRead_ensures _ h]
    exact ih
  | fullRead hp h ih =>
    obtain ⟨answers, hread⟩ := fullRead_ensures ih h
    by_cases hcomplete : ∃ batch arrived, answers.Delivers batch arrived
    · obtain ⟨batch, arrived, hdelivers⟩ := hcomplete
      obtain ⟨-, ⟨time, computing, hstatus⟩, -⟩ := hread.published batch arrived hdelivers
      rw [hstatus]
      simp only [Snapshot.notices, List.rtake, List.length_drop, maxNotices]
      omega
    · obtain ⟨_, -, -, -, ⟨computing, hstatus⟩, -⟩ := hread.incomplete hcomplete
      rw [hstatus]
      exact ih
  | reconfigure hp polling ih =>
    rw [(Retuned.settings polling).frame.1]
    exact ih

theorem read (hp : p.Reachable) (kind : ReadKind) :
    Ensures (p.read kind) fun _ (_, p') => p'.Reachable := by
  rintro trace ⟨result, p'⟩ h
  cases kind with
  | minimal => exact hp.minimalRead h
  | full => exact hp.fullRead h

/-- A tick leads from reachable states to reachable states, -/
theorem tick {p' : Poller} {trace : List (Exchange Effects)}
    {outcome : Except TickError TickOutcome} (hp : p.Reachable) (h : p.Ticked trace outcome p') :
    p'.Reachable := by
  cases h with
  | unready looked failed => exact hp.setUp failed
  | alive looked reported answered => exact (hp.paced _).read _ answered
  | ready looked prepared reported answered =>
    exact ((hp.setUp prepared).paced _).read _ answered

/-- and so does everything else that a poller wakes up for. -/
theorem handle {s s' : Session} {trace : List (Exchange Effects)} (hs : s.poller.Reachable)
    (h : s.Woken trace s') : s'.poller.Reachable := by
  obtain ⟨q, hretuned, hrest⟩ := h
  have hq : q.Reachable := by
    cases hretuned with
    | same => exact hs
    | screen on => exact hs.paced _
    | settings polling => exact hs.reconfigure polling
  rcases hrest with ⟨-, rfl⟩ | ⟨outcome, hticked⟩
  · exact hq
  · exact hq.tick hticked

theorem run {s s' : Session} {trace : List (Exchange Effects)} (hs : s.poller.Reachable)
    (h : s.Runs trace s') : s'.poller.Reachable :=
  h.invariant (fun _ s => s.poller.Reachable) hs fun hs hwoken => hs.handle hwoken

end Poller.Reachable

/-! ### Full reads in all of them -/

/-- In every state that a poller comes to, and whatever is answered: a full read asks all five of
its questions, and either publishes all of their answers at once or names the missing parts and
leaves what was published. -/
theorem Poller.fullRead_whole_or_nothing {p : Poller} (hp : p.Reachable)
    (around : Surroundings Effects) :
    let run := p.fullRead.converse around []
    ∃ answers, p.ReadsWhole answers run.1 run.2.1 run.2.2 :=
  (fullRead_ensures hp.notices_length_le).converse around

theorem Poller.fullRead_at_start :
    let p := Poller.ofConfig {} .arm64 ⟨"", ""⟩ true
    let run := p.fullRead.converse (fun _ => Effect.plain) []
    p.Reachable ∧ run.2.1 = .ok () ∧
      ∃ answers, p.ReadsWhole answers run.1 run.2.1 run.2.2 :=
  ⟨.start _ _ _ _, rfl, fullRead_whole_or_nothing (.start _ _ _ _) _⟩

end Overseer
