import Mathlib.Data.List.Nodup
import Overseer.Proofs.Polling.Turns
import Overseer.Proofs.Polling.Views
import Overseer.Proofs.Throughout

/-!
A worker's log of notices.

The worker numbers its notices and only ever adds to the end of its log (`NoticeLog`). Asked for the
notices after a number it gives the rest of the log. So whoever holds the beginning of the log and
asks for what comes after the last notice of it, is given exactly what is missing
(`NoticeLog.append_after`).
-/

namespace Overseer

open Program

/-- The number of the last notice, 0 without any. -/
def lastSeqno (notices : List Notice) : UInt64 := (notices.getLast?.map Notice.seqno).getD 0

/-- Numbered in order. -/
def Ordered (notices : List Notice) : Prop := notices.Pairwise fun n n' => n.seqno < n'.seqno

/-- What a worker's log holds at each turn of a run. -/
structure NoticeLog where
  entries : Nat → List Notice
  grows : ∀ turn, entries turn <+: entries (turn + 1)
  ordered : ∀ turn, Ordered (entries turn)
  numbered : ∀ turn, ∀ n ∈ entries turn, 1 ≤ n.seqno

/-- The requests for notices, in order, each with its answer. -/
def noticeAsks (trace : List (Exchange Effects)) :
    List (UInt64 × Except ChannelError (List Notice)) :=
  (channelled trace).filterMap fun
    | ⟨.call (.getNotices since), answer⟩ => some (since, answer)
    | _ => none

@[simp] theorem noticeAsks_append (first second : List (Exchange Effects)) :
    noticeAsks (first ++ second) = noticeAsks first ++ noticeAsks second := by
  rw [noticeAsks, channelled_append, List.filterMap_append]
  rfl

theorem mem_noticeAsks {trace : List (Exchange Effects)} {since : UInt64}
    {answer : Except ChannelError (List Notice)} :
    (since, answer) ∈ noticeAsks trace ↔
      (⟨.channel (.call (.getNotices since)), answer⟩ : Exchange Effects) ∈ trace := by
  rw [noticeAsks, List.mem_filterMap, ← mem_channelled]
  constructor
  · rintro ⟨e, hmem, heq⟩
    split at heq
    · cases heq
      exact hmem
    · cases heq
  · intro hmem
    exact ⟨_, hmem, rfl⟩

namespace NoticeLog

/-- The notices after a number. -/
def after (log : NoticeLog) (turn : Nat) (since : UInt64) : List Notice :=
  (log.entries turn).filter fun n => since < n.seqno

/-- In every turn, a request for notices either fails or is answered from the log. -/
def Answers (log : NoticeLog) (turns : List Turn) : Prop :=
  Throughout (fun before t => ∀ since arrived, (since, .ok arrived) ∈ noticeAsks t.trace →
    arrived = log.after before.length since) turns

end NoticeLog

/-! ### The rest of a log -/

section Rest

variable {held rest : List Notice}

theorem lastSeqno_append (h : rest ≠ []) : lastSeqno (held ++ rest) = lastSeqno rest := by
  rw [lastSeqno, List.getLast?_append_of_ne_nil _ h]
  rfl

theorem le_lastSeqno (h : Ordered held) : ∀ n ∈ held, n.seqno ≤ lastSeqno held := by
  intro n hn
  obtain ⟨before, last, rfl⟩ := List.eq_nil_or_concat' held |>.resolve_left (List.ne_nil_of_mem hn)
  rw [lastSeqno_append (by simp)]
  rcases List.mem_append.mp hn with hbefore | hlast
  · exact UInt64.le_of_lt ((List.pairwise_append.mp h).2.2 n hbefore last (by simp))
  · rw [List.mem_singleton.mp hlast]
    exact UInt64.le_refl _

/-- Every entry of the rest comes after the last notice held. -/
theorem lastSeqno_lt (h : Ordered (held ++ rest)) (hnumbered : ∀ n ∈ rest, 1 ≤ n.seqno) :
    ∀ n ∈ rest, lastSeqno held < n.seqno := by
  intro n hn
  cases hlast : held.getLast? with
  | none =>
    rw [lastSeqno, hlast]
    exact UInt64.lt_of_lt_of_le (by decide) (hnumbered n hn)
  | some last =>
    rw [lastSeqno, hlast]
    exact (List.pairwise_append.mp h).2.2 last (List.mem_of_getLast? hlast) n hn

/-- A log that grows never goes back in its numbers. -/
theorem lastSeqno_le (h : Ordered (held ++ rest)) (hnumbered : ∀ n ∈ rest, 1 ≤ n.seqno) :
    lastSeqno held ≤ lastSeqno (held ++ rest) := by
  obtain rfl | ⟨before, last, rfl⟩ := List.eq_nil_or_concat' rest
  · rw [List.append_nil]
    exact UInt64.le_refl _
  · have hlast : last ∈ before ++ [last] := by simp
    have hlt := lastSeqno_lt h hnumbered last hlast
    have hle := le_lastSeqno h last (List.mem_append_right _ hlast)
    exact UInt64.le_of_lt (UInt64.lt_of_lt_of_le hlt hle)

theorem lastSeqno_rtake {n : Nat} (hn : 0 < n) : lastSeqno (held.rtake n) = lastSeqno held := by
  rw [lastSeqno, List.rtake, List.getLast?_drop]
  by_cases hempty : held = []
  · rw [hempty]
    rfl
  · have hlength : 0 < held.length := List.length_pos_iff.mpr hempty
    rw [if_neg (by omega)]
    rfl

end Rest

namespace NoticeLog

variable (log : NoticeLog) {turn : Nat} {held : List Notice}

/-- Whoever holds the beginning of the log is given the rest of it. -/
theorem append_after (h : held <+: log.entries turn) :
    held ++ log.after turn (lastSeqno held) = log.entries turn := by
  obtain ⟨rest, hrest⟩ := h
  have hordered : Ordered (held ++ rest) := hrest ▸ log.ordered turn
  have hnumbered : ∀ n ∈ rest, 1 ≤ n.seqno := by
    intro n hn
    exact log.numbered turn n (hrest ▸ List.mem_append_right held hn)
  have hheld : ∀ n ∈ held, ¬lastSeqno held < n.seqno := by
    intro n hn
    exact UInt64.not_lt.mpr (le_lastSeqno (List.pairwise_append.mp hordered).1 n hn)
  rw [after, ← hrest, List.filter_append, List.filter_eq_nil_iff.mpr (by simpa using hheld),
    List.filter_eq_self.mpr (by simpa using lastSeqno_lt hordered hnumbered), List.nil_append]

theorem ordered_of_prefix (h : held <+: log.entries turn) : Ordered held :=
  (log.ordered turn).sublist h.sublist

end NoticeLog

/-! ### Blocks -/

/-- What is listed once, block after block, is in exactly one block. -/
theorem existsUnique_block {α : Type} {blocks : List (List α)} {x : α}
    (hnodup : blocks.flatten.Nodup) (hx : x ∈ blocks.flatten) :
    ∃! i : Nat, ∃ block, blocks[i]? = some block ∧ x ∈ block := by
  obtain ⟨-, hdisjoint⟩ := List.nodup_flatten.mp hnodup
  obtain ⟨block, hblock, hmem⟩ := List.mem_flatten.mp hx
  obtain ⟨i, hi⟩ := List.mem_iff_getElem?.mp hblock
  refine ⟨i, ⟨block, hi, hmem⟩, ?_⟩
  rintro j ⟨block', hj, hmem'⟩
  by_contra hne
  obtain ⟨hilt, rfl⟩ := List.getElem?_eq_some_iff.mp hi
  obtain ⟨hjlt, rfl⟩ := List.getElem?_eq_some_iff.mp hj
  rcases Nat.lt_or_gt_of_ne hne with hlt | hlt
  · exact List.pairwise_iff_getElem.mp hdisjoint j i hjlt hilt hlt hmem' hmem
  · exact List.pairwise_iff_getElem.mp hdisjoint i j hilt hjlt hlt hmem hmem'

end Overseer
