import Overseer.Proofs.Notices.Delivery

/-!
The order of the notices held.

Asked for the notices after a number, a worker may give them in any order. A poller appends what it
is given, and goes on after the last notice that it holds. So the notices held stay in order, and
the last of them is the newest, exactly as long as the worker gives the end of every batch in order,
as much of it as is kept (`notices_ordered_iff`). Otherwise a notice that is held is asked for
again.
-/

namespace Overseer

open Program

/-- A worker that gives only notices after the number that it is asked about, in whatever order. -/
def GivesNewer (turns : List Turn) : Prop :=
  ∀ t ∈ turns, ∀ since arrived, (since, .ok arrived) ∈ noticeAsks t.trace →
    ∀ n ∈ arrived, since < n.seqno

/-- The notices held are in order, and the next request goes on after the newest of them. -/
structure Snapshot.InOrder (s : Snapshot) : Prop where
  ordered : Ordered s.notices
  highest : ∀ n ∈ s.notices, n.seqno ≤ s.latestSeqno
  held : s.notices ≠ [] → ∃ n ∈ s.notices, n.seqno = s.latestSeqno

/-- Of notices in order the last one is the newest. -/
theorem Snapshot.inOrder_iff (s : Snapshot) : s.InOrder ↔ Ordered s.notices := by
  constructor
  · exact InOrder.ordered
  · intro h
    refine ⟨h, ?_, ?_⟩
    · rw [s.latestSeqno_eq]
      exact le_lastSeqno h
    · intro hne
      refine ⟨s.notices.getLast hne, List.getLast_mem hne, ?_⟩
      rw [s.latestSeqno_eq, lastSeqno, List.getLast?_eq_some_getLast hne]
      rfl

/-! ### One batch -/

theorem rtake_append {α : Type} (first second : List α) (n : Nat) :
    (first ++ second).rtake n = first.rtake (n - second.length) ++ second.rtake n := by
  simp only [List.rtake_eq_reverse_take_reverse, List.reverse_append, List.take_append,
    List.length_reverse]

theorem ordered_end {held arrived : List Notice} {k : Nat}
    (h : Ordered ((held ++ arrived).rtake k)) : Ordered (arrived.rtake k) := by
  rw [rtake_append] at h
  exact (List.pairwise_append.mp h).2.1

/-- Newer notices keep the order if as many of them as are kept are in order. -/
theorem ordered_append {held arrived : List Notice} {k : Nat} (hheld : Ordered held)
    (hnewer : ∀ n ∈ arrived, lastSeqno held < n.seqno) (hend : Ordered (arrived.rtake k)) :
    Ordered ((held ++ arrived).rtake k) := by
  rw [rtake_append]
  refine List.pairwise_append.mpr ⟨hheld.sublist (List.drop_sublist ..), hend, ?_⟩
  intro n hn n' hn'
  have hle := le_lastSeqno hheld n (List.mem_of_mem_drop hn)
  exact UInt64.lt_of_le_of_lt hle (hnewer n' (List.mem_of_mem_drop hn'))

namespace Poller.Gathers

variable {t : Turn} {batch : Option (List Notice)}

/-- Where what is held is in order after a batch, the end of the batch is. -/
theorem ordered_end {arrived : List Notice}
    (h : t.before.poller.Gathers t.trace t.after.poller (some arrived))
    (hafter : Ordered t.after.poller.status.notices) : Ordered (arrived.rtake maxNotices) := by
  cases h with
  | published asks readings extended =>
    rw [extended] at hafter
    exact Overseer.ordered_end hafter

/-- A turn keeps the order if the end of what it publishes is in order. -/
theorem ordered (h : t.before.poller.Gathers t.trace t.after.poller batch)
    (hnewer : ∀ since arrived, (since, .ok arrived) ∈ noticeAsks t.trace →
      ∀ n ∈ arrived, since < n.seqno)
    (hbefore : Ordered t.before.poller.status.notices)
    (hend : ∀ arrived, batch = some arrived → Ordered (arrived.rtake maxNotices)) :
    Ordered t.after.poller.status.notices := by
  cases h with
  | idle noticeless kept =>
    rw [Snapshot.notices, kept]
    exact hbefore
  | dropped asks readings kept =>
    rw [Snapshot.notices, kept]
    exact hbefore
  | @published arrived asks readings extended =>
    rw [extended]
    refine ordered_append hbefore ?_ (hend arrived rfl)
    rw [← Snapshot.latestSeqno_eq]
    exact hnewer _ _ (by simp [asks])

end Poller.Gathers

/-! ### Over a run -/

namespace Session.Turns

variable {s s' : Session} {turns : List Turn}

/-- Every turn of a run gathers notices. -/
theorem gathers (run : s.Turns turns s') (hs : s.poller.Reachable) :
    ∀ t ∈ turns, ∃ batch, t.before.poller.Gathers t.trace t.after.poller batch := by
  have hrun := run.invariant
    (fun past s => s.poller.Reachable ∧
      ∀ t ∈ past, ∃ batch, t.before.poller.Gathers t.trace t.after.poller batch)
    ⟨hs, List.forall_mem_nil _⟩ ?_
  · exact hrun.2
  · rintro past t ⟨hreachable, hpast⟩ hwoken
    have hgathers := hwoken.gathers hreachable.notices_length_le
    exact ⟨hreachable.handle hwoken,
      List.forall_mem_append.mpr ⟨hpast, List.forall_mem_singleton.mpr hgathers⟩⟩

/-- Where the end of every batch is in order, so is what is held, before and after every turn. -/
theorem ordered (run : s.Turns turns s') (hs : Ordered s.poller.status.notices)
    (hgathers : ∀ t ∈ turns, ∃ batch, t.before.poller.Gathers t.trace t.after.poller batch)
    (hnewer : GivesNewer turns)
    (hends : ∀ arrived ∈ batches turns, Ordered (arrived.rtake maxNotices)) :
    Ordered s'.poller.status.notices ∧
      ∀ t ∈ turns, Ordered t.before.poller.status.notices ∧
        Ordered t.after.poller.status.notices := by
  induction run with
  | start => exact ⟨hs, List.forall_mem_nil _⟩
  | @turn past s₁ s₂ now wake action trace run handled followed ih =>
    let t : Turn := ⟨s₁, trace, s₂⟩
    have ht : t ∈ [t] := List.mem_singleton_self t
    obtain ⟨hgathersPast, hgathersLast⟩ := List.forall_mem_append.mp hgathers
    obtain ⟨hnewerPast, hnewerLast⟩ := List.forall_mem_append.mp hnewer
    rw [batches_append] at hends
    obtain ⟨hendsPast, hendsLast⟩ := List.forall_mem_append.mp hends
    obtain ⟨hbefore, hpast⟩ := ih hgathersPast hnewerPast hendsPast
    obtain ⟨batch, hbatch⟩ := hgathersLast t ht
    have hafter : Ordered t.after.poller.status.notices := by
      refine hbatch.ordered (hnewerLast t ht) hbefore fun arrived harrived => ?_
      subst harrived
      exact hendsLast arrived (List.mem_filterMap.mpr ⟨t, ht, hbatch.batch?_eq⟩)
    refine ⟨hafter, List.forall_mem_append.mpr ⟨hpast, ?_⟩⟩
    exact List.forall_mem_singleton.mpr ⟨hbefore, hafter⟩

end Session.Turns

/-- When the notices held are in order. -/
structure OrderKept (turns : List Turn) : Prop where
  /-- Notices are asked for after the last one held. -/
  resumes : ∀ t ∈ turns, ∀ since ∈ resumed [t], since = t.before.poller.status.latestSeqno
  /-- They are in order after every publish exactly if the end of every batch is, as much of it as
  is kept. -/
  inOrder_iff : (∀ t ∈ turns, t.batch?.isSome → t.after.poller.status.InOrder) ↔
    ∀ arrived ∈ batches turns, Ordered (arrived.rtake 256)
  /-- Then none that is held is asked for again. -/
  unasked : (∀ arrived ∈ batches turns, Ordered (arrived.rtake 256)) →
    ∀ t ∈ turns, ∀ since ∈ resumed [t], ∀ n ∈ t.before.poller.status.notices, n.seqno ≤ since

/-- Whatever a poller wakes up for, whatever fails in between, and in whatever order the worker
gives its notices. -/
theorem notices_ordered_iff {config : Config} {platform : Platform} {host : HostIdentity}
    {displayOn : Bool} {now : Nat} {turns : List Turn} {s : Session}
    (run : (Session.start (.ofConfig config platform host displayOn) now).Turns turns s)
    (newer : GivesNewer turns) : OrderKept turns := by
  have hgathers := run.gathers (.start config platform host displayOn)
  have hordered := run.ordered List.Pairwise.nil hgathers newer
  have hresumes : ∀ t ∈ turns, ∀ since ∈ resumed [t],
      since = t.before.poller.status.latestSeqno := by
    intro t ht since hsince
    obtain ⟨batch, hbatch⟩ := hgathers t ht
    rcases hbatch.asked with hnone | hone
    · simp [resumed, hnone] at hsince
    · simpa [resumed, hone] using hsince
  refine {
    resumes := hresumes
    inOrder_iff := ?_
    unasked := ?_ }
  · constructor
    · intro hkept arrived harrived
      obtain ⟨t, ht, hbatch⟩ := List.mem_filterMap.mp harrived
      have hafter := (hkept t ht (by simp [hbatch])).ordered
      obtain ⟨batch, hgathered⟩ := hgathers t ht
      obtain rfl : batch = some arrived := hgathered.batch?_eq.symm.trans hbatch
      exact hgathered.ordered_end hafter
    · intro hends t ht _
      exact (Snapshot.inOrder_iff _).mpr ((hordered hends).2 t ht).2
  · intro hends t ht since hsince n hn
    have hbefore := (Snapshot.inOrder_iff _).mpr ((hordered hends).2 t ht).1
    rw [hresumes t ht since hsince]
    exact hbefore.highest n hn

/-! ### Two workers -/

/-- The answers of a worker that gives these notices in this order, less those that are not after
the number asked about. -/
def Effect.giving (notices : List Notice) : (effect : Effect) → effect.Answer
  | .channel (.call (.getNotices since)) => .ok (notices.filter fun n => since < n.seqno)
  | effect => effect.plain

/-- Two ticks of a supervisor that has just started, against such a worker. -/
def twoTicks (notices : List Notice) : List (Wake × Turn) × Session :=
  (Session.start (.ofConfig {} .arm64 ⟨"", ""⟩ true) 0).play (Effect.giving notices) [.tick, .tick]

theorem turns_twoTicks (notices : List Notice) :
    (Session.start (.ofConfig {} .arm64 ⟨"", ""⟩ true) 0).Turns
      ((twoTicks notices).1.map Prod.snd) (twoTicks notices).2 :=
  Session.turns_play _ _

theorem given_of_mem_twoTicks {notices arrived : List Notice} {t : Turn} {since : UInt64}
    (ht : t ∈ (twoTicks notices).1.map Prod.snd)
    (hasked : (since, .ok arrived) ∈ noticeAsks t.trace) :
    arrived = notices.filter fun n => since < n.seqno :=
  Except.ok.inj (Session.answer_of_mem_play ht (mem_noticeAsks.mp hasked))

theorem givesNewer_twoTicks (notices : List Notice) :
    GivesNewer ((twoTicks notices).1.map Prod.snd) := by
  intro t ht since arrived hasked n hn
  rw [given_of_mem_twoTicks ht hasked] at hn
  exact of_decide_eq_true (List.mem_filter.mp hn).2

def early : Notice := ⟨1, "early", "", 0, false⟩

def late : Notice := ⟨2, "late", "", 0, false⟩

/-- Given in order, both notices are published by the first tick, and none by the second. -/
theorem notices_ordered_iff_early_late :
    ∃ turns s, (Session.start (.ofConfig {} .arm64 ⟨"", ""⟩ true) 0).Turns turns s ∧
      GivesNewer turns ∧ (batches turns).map (·.map Notice.seqno) = [[1, 2], []] ∧
      OrderKept turns := by
  have hrun := turns_twoTicks [early, late]
  have hnewer := givesNewer_twoTicks [early, late]
  have hbatches : (batches ((twoTicks [early, late]).1.map Prod.snd)).map (·.map Notice.seqno) =
      [[1, 2], []] := by
    decide +kernel
  exact ⟨_, _, hrun, hnewer, hbatches, notices_ordered_iff hrun hnewer⟩

/-- Given the other way round, they are held so, and the later one is asked for again. -/
theorem notices_held_out_of_order :
    ∃ turns s, (Session.start (.ofConfig {} .arm64 ⟨"", ""⟩ true) 0).Turns turns s ∧
      GivesNewer turns ∧
      (∀ t ∈ turns, ∀ since arrived, (since, .ok arrived) ∈ noticeAsks t.trace →
        (arrived.map Notice.seqno).Nodup) ∧
      (∃ t ∈ turns, t.batch?.isSome ∧ ¬t.after.poller.status.InOrder) ∧
      ∃ t ∈ turns, ∃ since ∈ resumed [t], ∃ n ∈ t.before.poller.status.notices,
        since < n.seqno := by
  have hrun := turns_twoTicks [late, early]
  have hnewer := givesNewer_twoTicks [late, early]
  have hapart : ∀ t ∈ (twoTicks [late, early]).1.map Prod.snd, ∀ since arrived,
      (since, .ok arrived) ∈ noticeAsks t.trace → (arrived.map Notice.seqno).Nodup := by
    intro t ht since arrived hasked
    rw [given_of_mem_twoTicks ht hasked]
    have hall : ([late, early].map Notice.seqno).Nodup := by decide
    exact hall.sublist (List.filter_sublist.map _)
  have hshown : ((twoTicks [late, early]).1.map Prod.snd).map (fun t =>
      (t.batch?.isSome, t.after.poller.status.notices.map Notice.seqno, resumed [t])) =
        [(true, [2, 1], [0]), (true, [2, 1, 2], [1])] := by
    decide +kernel
  have hheld : ((twoTicks [late, early]).1.map Prod.snd).map (fun t =>
      t.before.poller.status.notices.map Notice.seqno) = [[], [2, 1]] := by
    decide +kernel
  generalize (twoTicks [late, early]).1.map Prod.snd = turns at hrun hnewer hapart hshown hheld
  obtain ⟨first, rest, rfl, hfirst, hrest⟩ := List.map_eq_cons_iff.mp hshown
  obtain ⟨second, rest, rfl, hsecond, -⟩ := List.map_eq_cons_iff.mp hrest
  simp only [Prod.mk.injEq] at hfirst hsecond
  simp only [List.map_cons, List.cons.injEq] at hheld
  refine ⟨_, _, hrun, hnewer, hapart, ⟨first, by simp, hfirst.1, fun h => ?_⟩,
    second, by simp, 1, by simp [hsecond.2.2], ?_⟩
  · have hordered : (first.after.poller.status.notices.map Notice.seqno).Pairwise (· < ·) :=
      List.pairwise_map.mpr h.ordered
    rw [hfirst.2.1] at hordered
    exact absurd hordered (by decide)
  · have hlate : 2 ∈ second.before.poller.status.notices.map Notice.seqno := by simp [hheld.2.1]
    obtain ⟨n, hn, hseqno⟩ := List.mem_map.mp hlate
    exact ⟨n, hn, by rw [hseqno]; decide⟩

end Overseer
