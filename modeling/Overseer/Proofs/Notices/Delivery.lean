import Mathlib.Algebra.GroupWithZero.Nat
import Overseer.Proofs.Notices.Gathering

/-!
Every notice is delivered once.

Against a worker that answers from its log, a poller always holds the end of a beginning of that
log, and the next request goes on where this beginning ends, however many reads failed in between
(`Gathered`). So the batches that are published, one after the other, are the log:
`notices_delivered_once` is the main statement.
-/

namespace Overseer

open Program

/-! ### Views of a run -/

/-- The batches that were published, in order. -/
def batches (turns : List Turn) : List (List Notice) := turns.filterMap Turn.batch?

/-- The numbers after which notices were asked for, in order. -/
def resumed (turns : List Turn) : List UInt64 :=
  turns.flatMap fun t => (noticeAsks t.trace).map Prod.fst

/-- The counts of notices that observers were told of, in order. -/
def toldCounts (turns : List Turn) : List Nat := turns.flatMap fun t => arrivalCounts t.readings

@[simp] theorem batches_append (first second : List Turn) :
    batches (first ++ second) = batches first ++ batches second :=
  List.filterMap_append ..

theorem flatten_batches_singleton (t : Turn) : (batches [t]).flatten = t.batch?.getD [] := by
  cases h : t.batch? <;> simp [batches, h]

@[simp] theorem resumed_append (first second : List Turn) :
    resumed (first ++ second) = resumed first ++ resumed second :=
  List.flatMap_append ..

/-- A turn that publishes a batch of what arrived in it. -/
structure Delivery (log : NoticeLog) (before : List Turn) (t : Turn) (arrived : List Notice) :
    Prop where
  /-- With this batch, all of the log was published. -/
  complete : (batches before).flatten ++ arrived = log.entries before.length
  shown : t.after.poller.status.notices = (log.entries before.length).rtake 256
  ordered : Ordered t.after.poller.status.notices
  told : t.readings = .updated ::
    if 0 < arrived.length ∧ t.after.poller.notifyOnNotices then [.newNotices arrived.length] else []

/-! ### What a run has gathered -/

/-- What holds after some turns against a worker with this log. -/
structure Gathered (log : NoticeLog) (turns : List Turn) (s : Session) : Prop where
  /-- The batches are a beginning of the log, -/
  known : (batches turns).flatten <+: log.entries turns.length
  /-- and the notices held are its end. -/
  held : s.poller.status.notices = (batches turns).flatten.rtake maxNotices
  bounded : ∀ t ∈ turns, t.before.poller.status.notices.length ≤ maxNotices
  delivered : Throughout (fun before t => ∀ arrived, t.batch? = some arrived →
    Delivery log before t arrived) turns
  quiet : ∀ t ∈ turns, t.batch? = none → t.readings = []
  resumes : (resumed turns).Pairwise (· ≤ ·)
  reached : ∀ since ∈ resumed turns, since ≤ lastSeqno (batches turns).flatten

theorem FullRead.latestSeqno_eq (read : FullRead) :
    read.latestSeqno = lastSeqno read.notices := by
  unfold latestSeqno lastSeqno
  cases read.notices.getLast? <;> rfl

theorem Snapshot.latestSeqno_eq (s : Snapshot) : s.latestSeqno = lastSeqno s.notices := by
  unfold latestSeqno notices
  cases s.worker with
  | none => rfl
  | some read => exact read.latestSeqno_eq

namespace Gathered

variable {log : NoticeLog} {past : List Turn} {t : Turn} {s : Session}
  {batch : Option (List Notice)}

theorem length_le (h : Gathered log past s) : s.poller.status.notices.length ≤ maxNotices := by
  rw [h.held, List.rtake, List.length_drop]
  omega

/-- The next request goes on where the batches end. -/
theorem latestSeqno_eq (h : Gathered log past s) :
    s.poller.status.latestSeqno = lastSeqno (batches past).flatten := by
  rw [Snapshot.latestSeqno_eq, h.held, lastSeqno_rtake (by decide)]

theorem start {s : Session} (log : NoticeLog) (h : s.poller.status.worker = none) :
    Gathered log [] s where
  known := List.nil_prefix
  held := by
    rw [Snapshot.notices, h]
    rfl
  bounded := by simp
  delivered := throughout_nil
  quiet := by simp
  resumes := List.Pairwise.nil
  reached := by simp [resumed]

/-- A batch that is published is the rest of the log. -/
theorem delivery {arrived : List Notice} (h : Gathered log past t.before)
    (hgathers : t.before.poller.Gathers t.trace t.after.poller (some arrived))
    (hanswered : ∀ since arrived, (since, .ok arrived) ∈ noticeAsks t.trace →
      arrived = log.after past.length since) : Delivery log past t arrived := by
  cases hgathers with
  | published asks readings extended =>
    have hrest : arrived = log.after past.length (lastSeqno (batches past).flatten) := by
      rw [← h.latestSeqno_eq]
      exact hanswered _ _ (by simp [asks])
    have hcomplete : (batches past).flatten ++ arrived = log.entries past.length := by
      rw [hrest]
      exact log.append_after h.known
    have hshown : t.after.poller.status.notices = (log.entries past.length).rtake 256 := by
      rw [extended, h.held, rtake_rtake_append, hcomplete]
      rfl
    refine ⟨hcomplete, hshown, ?_, readings⟩
    rw [hshown]
    exact (log.ordered past.length).sublist (List.drop_sublist ..)

/-- The notices held go on with what is published. -/
theorem held_concat (h : Gathered log past t.before)
    (hgathers : t.before.poller.Gathers t.trace t.after.poller batch) :
    t.after.poller.status.notices = ((batches past).flatten ++ batch.getD []).rtake maxNotices := by
  cases hgathers with
  | idle noticeless kept =>
    rw [Snapshot.notices, kept, Option.getD_none, List.append_nil]
    exact h.held
  | dropped asks readings kept =>
    rw [Snapshot.notices, kept, Option.getD_none, List.append_nil]
    exact h.held
  | published asks readings extended =>
    rw [extended, h.held]
    exact rtake_rtake_append ..

/-- What one turn adds. -/
theorem concat (h : Gathered log past t.before)
    (hgathers : t.before.poller.Gathers t.trace t.after.poller batch)
    (hanswered : ∀ since arrived, (since, .ok arrived) ∈ noticeAsks t.trace →
      arrived = log.after past.length since) : Gathered log (past ++ [t]) t.after := by
  have hbatch : t.batch? = batch := hgathers.batch?_eq
  have hdelivery : ∀ arrived, t.batch? = some arrived → Delivery log past t arrived := by
    intro arrived harrived
    rw [hbatch] at harrived
    subst harrived
    exact h.delivery hgathers hanswered
  have hflatten : (batches (past ++ [t])).flatten = (batches past).flatten ++ batch.getD [] := by
    rw [batches_append, List.flatten_append, flatten_batches_singleton, hbatch]
  have hgrown : (batches (past ++ [t])).flatten <+: log.entries past.length := by
    rw [hflatten]
    cases batch with
    | none => simpa using h.known
    | some arrived => exact (hdelivery arrived hbatch).complete ▸ List.prefix_rfl
  have hmore : lastSeqno (batches past).flatten ≤ lastSeqno (batches (past ++ [t])).flatten := by
    have hordered := log.ordered_of_prefix hgrown
    rw [hflatten] at hordered hgrown ⊢
    refine lastSeqno_le hordered fun n hn => ?_
    exact log.numbered _ n (hgrown.subset (List.mem_append_right _ hn))
  have hasked : ∀ since ∈ resumed [t], since = lastSeqno (batches past).flatten := by
    intro since hsince
    rw [← h.latestSeqno_eq]
    rcases hgathers.asked with hnone | hone
    · simp [resumed, hnone] at hsince
    · simpa [resumed, hone] using hsince
  refine {
    known := ?_
    held := by rw [h.held_concat hgathers, hflatten]
    bounded := List.forall_mem_append.mpr ⟨h.bounded, List.forall_mem_singleton.mpr h.length_le⟩
    delivered := throughout_concat.mpr ⟨h.delivered, hdelivery⟩
    quiet := ?_
    resumes := ?_
    reached := ?_ }
  · rw [List.length_append]
    exact hgrown.trans (log.grows past.length)
  · refine List.forall_mem_append.mpr ⟨h.quiet, List.forall_mem_singleton.mpr fun hnone => ?_⟩
    rw [hnone] at hbatch
    subst hbatch
    cases hgathers with
    | idle noticeless kept => exact noticeless.readings _
    | dropped asks readings kept => exact readings
  · rw [resumed_append]
    refine List.pairwise_append.mpr ⟨h.resumes, ?_, ?_⟩
    · rcases hgathers.asked with hnone | hone
      · simp [resumed, hnone]
      · simp [resumed, hone]
    · intro since hsince since' hsince'
      rw [hasked since' hsince']
      exact h.reached since hsince
  · rw [resumed_append]
    refine List.forall_mem_append.mpr ⟨fun since hsince => ?_, fun since hsince => ?_⟩
    · exact UInt64.le_trans (h.reached since hsince) hmore
    · rw [hasked since hsince]
      exact hmore

end Gathered

/-- Every run against a worker that answers from its log gathers it. -/
theorem Session.Turns.gathered {s s' : Session} {turns : List Turn} {log : NoticeLog}
    (run : s.Turns turns s') (hstart : s.poller.status.worker = none)
    (answers : log.Answers turns) : Gathered log turns s' := by
  have hrun := run.invariant (fun past s => log.Answers past → Gathered log past s)
    (fun _ => .start log hstart) ?_
  · exact hrun answers
  · intro past t hpast hwoken hanswers
    obtain ⟨hbefore, hanswered⟩ := throughout_concat.mp hanswers
    have hgathered := hpast hbefore
    obtain ⟨batch, hgathers⟩ := hwoken.gathers hgathered.length_le
    exact hgathered.concat hgathers hanswered

/-! ### Delivery over whole runs -/

/-- What a poller makes of a worker's log over some turns. -/
structure DeliversOnce (log : NoticeLog) (turns : List Turn) : Prop where
  delivered : ∀ before t after arrived, turns = before ++ t :: after → t.batch? = some arrived →
    Delivery log before t arrived
  /-- A turn that publishes nothing tells of nothing. -/
  quiet : ∀ t ∈ turns, t.batch? = none → t.readings = []
  /-- A batch is published exactly in the turns whose tick is a successful full read. -/
  published_iff : ∀ t ∈ turns, ∀ p outcome, t.before.poller.Retuned p →
    p.Ticked t.trace outcome t.after.poller → (outcome = .ok (.read .full) ↔ t.batch?.isSome)
  /-- All that was in the log at a published read is in exactly one batch. -/
  once : ∀ before t after arrived, turns = before ++ t :: after → t.batch? = some arrived →
    ∀ n ∈ log.entries before.length,
      ∃! i : Nat, ∃ batch, (batches turns)[i]? = some batch ∧ n ∈ batch
  /-- If observers are always to be told, they are told of as many notices as the log had at the
  last published read. -/
  counted : (∀ t ∈ turns, t.after.poller.notifyOnNotices) →
    ∀ before t after arrived, turns = before ++ t :: after → t.batch? = some arrived →
      batches after = [] → (toldCounts turns).sum = (log.entries before.length).length
  resumes : (resumed turns).Pairwise (· ≤ ·)

namespace Gathered

variable {log : NoticeLog} {turns before after : List Turn} {t : Turn} {s : Session}
  {arrived : List Notice}

theorem delivery_of_split (h : Gathered log turns s) (hsplit : turns = before ++ t :: after)
    (hbatch : t.batch? = some arrived) : Delivery log before t arrived :=
  h.delivered before t after hsplit arrived hbatch

/-- The log at a published read, and then what was published later. -/
theorem flatten_batches (h : Gathered log turns s) (hsplit : turns = before ++ t :: after)
    (hbatch : t.batch? = some arrived) :
    (batches turns).flatten = log.entries before.length ++ (batches after).flatten := by
  rw [← (h.delivery_of_split hsplit hbatch).complete, hsplit, ← List.singleton_append,
    batches_append, batches_append, List.flatten_append, List.flatten_append,
    flatten_batches_singleton, hbatch, List.append_assoc]
  rfl

theorem nodup (h : Gathered log turns s) : (batches turns).flatten.Nodup := by
  refine (log.ordered_of_prefix h.known).imp fun hlt heq => ?_
  rw [heq] at hlt
  exact UInt64.lt_irrefl _ hlt

/-- With the flag set, a turn tells of as many notices as it publishes. -/
theorem sum_arrivalCounts (h : Gathered log turns s) (ht : t ∈ turns)
    (hnotify : t.after.poller.notifyOnNotices) :
    (arrivalCounts t.readings).sum = (t.batch?.getD []).length := by
  cases hbatch : t.batch? with
  | none =>
    rw [h.quiet t ht hbatch]
    rfl
  | some arrived =>
    obtain ⟨before, after, hsplit⟩ := List.append_of_mem ht
    rw [(h.delivery_of_split hsplit hbatch).told, Option.getD_some]
    by_cases harrived : 0 < arrived.length
    · simp [arrivalCounts, harrived, hnotify]
    · have hnone : arrived.length = 0 := by omega
      simp [arrivalCounts, hnone]

theorem sum_toldCounts (h : Gathered log turns s)
    (hnotify : ∀ t ∈ turns, t.after.poller.notifyOnNotices) :
    (toldCounts turns).sum = (batches turns).flatten.length := by
  have hsum : ∀ some : List Turn, (∀ t ∈ some, t ∈ turns) →
      (toldCounts some).sum = (batches some).flatten.length := by
    intro some hsome
    induction some with
    | nil => rfl
    | cons t rest ih =>
      obtain ⟨ht, hrest⟩ := List.forall_mem_cons.mp hsome
      rw [← List.singleton_append, batches_append, List.flatten_append, List.length_append,
        flatten_batches_singleton, ← ih hrest, ← h.sum_arrivalCounts ht (hnotify t ht)]
      simp [toldCounts]
  exact hsum turns fun _ ht => ht

end Gathered

/-- Whatever a poller wakes up for, and whatever fails in between: against a worker that answers
from a log that only grows, every notice of it is delivered once. -/
theorem notices_delivered_once {config : Config} {platform : Platform} {host : HostIdentity}
    {displayOn : Bool} {now : Nat} {turns : List Turn} {s : Session} {log : NoticeLog}
    (run : (Session.start (.ofConfig config platform host displayOn) now).Turns turns s)
    (answers : log.Answers turns) : DeliversOnce log turns := by
  have h : Gathered log turns s := run.gathered rfl answers
  refine {
    delivered := fun before t after arrived hsplit hbatch => h.delivery_of_split hsplit hbatch
    quiet := h.quiet
    published_iff := ?_
    once := ?_
    counted := ?_
    resumes := h.resumes }
  · intro t ht p outcome hretuned hticked
    have hheld := h.bounded t ht
    rw [← hretuned.frame.1] at hheld
    obtain ⟨batch, hgathers, houtcome⟩ := hticked.gathers hheld
    rwa [(hgathers.of_retuned hretuned).batch?_eq]
  · intro before t after arrived hsplit hbatch n hn
    refine existsUnique_block h.nodup ?_
    rw [h.flatten_batches hsplit hbatch]
    exact List.mem_append_left _ hn
  · intro hnotify before t after arrived hsplit hbatch hlast
    rw [h.sum_toldCounts hnotify, h.flatten_batches hsplit hbatch, hlast, List.flatten_nil,
      List.append_nil]

/-! ### A log that grows -/

/-- A notice of which only the number counts. -/
def Notice.numbered (seqno : UInt64) : Notice := ⟨seqno, "news", "", 0, true⟩

/-- One more notice at every turn, up to five. -/
def NoticeLog.growing : NoticeLog where
  entries turn := (([1, 2, 3, 4, 5] : List UInt64).map Notice.numbered).take (turn + 1)
  grows _ := List.take_prefix_take_left (Nat.le_succ _)
  ordered _ :=
    have hordered : Ordered (([1, 2, 3, 4, 5] : List UInt64).map Notice.numbered) := by
      simp [Ordered, Notice.numbered]
    hordered.sublist (List.take_sublist ..)
  numbered _ n hn := by
    have hnumbered : ∀ n ∈ ([1, 2, 3, 4, 5] : List UInt64).map Notice.numbered, 1 ≤ n.seqno := by
      simp [Notice.numbered]
    exact hnumbered n (List.mem_of_mem_take hn)

/-- The answers of a worker that gives the first notice when asked for all of them, and otherwise
the next two. -/
def Effect.givingNext : (effect : Effect) → effect.Answer
  | .channel (.call (.getNotices since)) =>
    .ok (if since = 0 then [.numbered 1] else [.numbered (since + 1), .numbered (since + 2)])
  | effect => effect.plain

/-- A full read, the switch that makes the next read full, that read, a minimal one and a forced
one. -/
def newsWakes : List Wake :=
  [.tick, .command (.displayChanged false), .tick, .tick, .command .forceRefresh]

/-- Five turns against a worker with this log. What came while nobody asked is in the next batch. -/
theorem notices_delivered_once_growing :
    ∃ turns s, (Session.start (.ofConfig {} .arm64 ⟨"", ""⟩ true) 0).Turns turns s ∧
      NoticeLog.growing.Answers turns ∧
      (batches turns).map (·.map Notice.seqno) = [[1], [2, 3], [4, 5]] ∧
      DeliversOnce .growing turns := by
  let start := Session.start (.ofConfig {} .arm64 ⟨"", ""⟩ true) 0
  have hrun := @Session.turns_play Effect.givingNext start newsWakes
  have hgiven : ∀ t ∈ (start.play Effect.givingNext newsWakes).1.map Prod.snd, ∀ since arrived,
      (since, .ok arrived) ∈ noticeAsks t.trace → arrived = if since = 0 then [.numbered 1]
        else [.numbered (since + 1), .numbered (since + 2)] := by
    intro t ht since arrived hasked
    exact Except.ok.inj (Session.answer_of_mem_play ht (mem_noticeAsks.mp hasked))
  have hresumed : ((start.play Effect.givingNext newsWakes).1.map Prod.snd).map
      (fun t => resumed [t]) = [[0], [], [1], [], [3]] := by
    decide +kernel
  have hbatches : (batches ((start.play Effect.givingNext newsWakes).1.map Prod.snd)).map
      (·.map Notice.seqno) = [[1], [2, 3], [4, 5]] := by
    decide +kernel
  generalize (start.play Effect.givingNext newsWakes).1.map Prod.snd = turns at *
  have hanswers : NoticeLog.growing.Answers turns := by
    intro before t after hsplit since arrived hasked
    have hsince : since ∈ resumed [t] := by
      simpa [resumed] using ⟨_, hasked⟩
    have hturn : some (resumed [t]) =
        ([[0], [], [1], [], [3]] : List (List UInt64))[before.length]? := by
      rw [← hresumed, hsplit]
      simp
    have hturns : (before.length = 0 ∧ since = 0) ∨ (before.length = 2 ∧ since = 1) ∨
        (before.length = 4 ∧ since = 3) := by
      match hlength : before.length with
      | 0 | 1 | 2 | 3 | 4 => simp_all
      | _ + 5 => simp_all
    rw [hgiven t (hsplit ▸ by simp) since arrived hasked]
    rcases hturns with ⟨hlength, rfl⟩ | ⟨hlength, rfl⟩ | ⟨hlength, rfl⟩
    all_goals
      rw [hlength]
      rfl
  exact ⟨_, _, hrun, hanswers, hbatches, notices_delivered_once hrun hanswers⟩

end Overseer
