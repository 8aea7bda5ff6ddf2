import Mathlib.Data.List.Nodup
import Overseer.Config.Basic

/-!
The sections of a configuration.

Two configurations are equal exactly if all their sections are (`Config.beq_iff_forall_same`). Of
the sections that differ all but polling are listed as needing a restart, each of them once
(`Config.mem_restartSections`, `Config.nodup_restartSections`), so a difference always shows.
-/

namespace Overseer.Config

/-- A section of a configuration. -/
inductive Part where
  | worker
  | polling
  | setup
  | shutdown
  | locks
  | display
  | device
deriving DecidableEq, Repr

namespace Part

def name : Part → String
  | worker => "worker"
  | polling => "polling"
  | setup => "setup"
  | shutdown => "shutdown"
  | locks => "locks"
  | display => "display"
  | device => "device"

/-- The section is the same in both configurations. -/
def same (previous next : Config) : Part → Bool
  | worker => next.worker == previous.worker
  | polling => next.polling == previous.polling
  | setup => next.setup == previous.setup
  | shutdown => next.shutdown == previous.shutdown
  | locks => next.locks == previous.locks
  | display => next.display == previous.display
  | device => next.device == previous.device

/-- The sections in the order in which they are compared for a restart. -/
def restarting : List Part := [worker, setup, shutdown, locks, display, device]

theorem mem_restarting {part : Part} : part ∈ restarting ↔ part ≠ polling := by
  cases part <;> decide

theorem name_injective : Function.Injective name := by
  intro part part' h
  cases part <;> cases part' <;> first | rfl | exact absurd h (by decide)

end Part

variable (previous next : Config)

theorem beq_iff_forall_same :
    (next == previous) = true ↔ ∀ part : Part, part.same previous next = true := by
  obtain ⟨worker, polling, setup, shutdown, locks, display, device⟩ := next
  obtain ⟨worker', polling', setup', shutdown', locks', display', device'⟩ := previous
  have hbeq : (Config.mk worker polling setup shutdown locks display device ==
      Config.mk worker' polling' setup' shutdown' locks' display' device') =
      (worker == worker' && (polling == polling' && (setup == setup' && (shutdown == shutdown' &&
        (locks == locks' && (display == display' && device == device')))))) := rfl
  rw [hbeq]
  simp only [Bool.and_eq_true]
  constructor
  · rintro ⟨hworker, hpolling, hsetup, hshutdown, hlocks, hdisplay, hdevice⟩ part
    cases part <;> assumption
  · intro h
    exact ⟨h .worker, h .polling, h .setup, h .shutdown, h .locks, h .display, h .device⟩

theorem restartSections_eq :
    restartSections previous next =
      (Part.restarting.filter fun part => !part.same previous next).map Part.name := by
  rw [← List.filterMap_eq_map, List.filterMap_filter]
  rfl

theorem mem_restartSections {name : String} :
    name ∈ restartSections previous next ↔
      ∃ part : Part, part ≠ .polling ∧ part.same previous next = false ∧ part.name = name := by
  rw [restartSections_eq]
  simp [Part.mem_restarting, and_assoc]

theorem nodup_restartSections : (restartSections previous next).Nodup := by
  rw [restartSections_eq]
  have hrestarting : Part.restarting.Nodup := by decide
  exact (hrestarting.filter _).map Part.name_injective

/-- What of an accepted configuration is seen to differ from the one before. -/
structure Tells : Prop where
  /-- No difference is silent. -/
  equal_iff : (next == previous) = true ↔
    restartSections previous next = [] ∧ next.polling = previous.polling
  listed : ∀ name, name ∈ restartSections previous next ↔
    ∃ part : Part, part ≠ .polling ∧ part.same previous next = false ∧ part.name = name
  once : (restartSections previous next).Nodup

theorem tells : Tells previous next where
  equal_iff := by
    have hpolling : Part.polling.same previous next = true ↔ next.polling = previous.polling :=
      beq_iff_eq
    rw [beq_iff_forall_same, ← hpolling, List.eq_nil_iff_forall_not_mem]
    constructor
    · intro hsame
      refine ⟨fun name hname => ?_, hsame .polling⟩
      obtain ⟨part, -, hdiffers, -⟩ := (mem_restartSections previous next).mp hname
      exact Bool.false_ne_true (hdiffers.symm.trans (hsame part))
    · rintro ⟨hnone, hsame⟩ part
      by_cases hpart : part = .polling
      · rw [hpart]
        exact hsame
      · cases hdiffers : part.same previous next with
        | true => rfl
        | false =>
          have hlisted := (mem_restartSections previous next).mpr ⟨part, hpart, hdiffers, rfl⟩
          exact absurd hlisted (hnone part.name)
  listed name := mem_restartSections previous next
  once := nodup_restartSections previous next

end Overseer.Config
