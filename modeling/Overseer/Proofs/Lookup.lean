import Mathlib.Data.List.Nodup
import Mathlib.Data.List.Perm.Basic

/-!
Looking up by name.

Where each name stands once, looking it up finds what stands under it (`lookup_eq_some_iff_mem`),
wherever that is, and so the order makes no difference (`lookup_perm`).
-/

namespace Overseer

variable {β : Type} {l before after : List (String × β)} {name other : String} {v : β}

theorem lookup_middle (h : ((before ++ (name, v) :: after).map (·.1)).Nodup) :
    (before ++ (name, v) :: after).lookup name = some v := by
  apply List.lookup_eq_some_iff.mpr
  refine ⟨before, after, rfl, ?_⟩
  intro p hp
  rw [List.map_append, List.map_cons, List.nodup_middle, List.nodup_cons] at h
  have hne : name ≠ p.1 := by
    rintro rfl
    exact h.1 (List.mem_append_left _ (List.mem_map.mpr ⟨p, hp, rfl⟩))
  simpa using hne

theorem lookup_middle_of_ne (h : other ≠ name) :
    (before ++ (name, v) :: after).lookup other = (before ++ after).lookup other := by
  have hbeq : (other == name) = false := by simpa using h
  rw [List.lookup_append, List.lookup_append, List.lookup_cons, hbeq]

theorem lookup_eq_none_of_nodup (h : ((before ++ (name, v) :: after).map (·.1)).Nodup) :
    (before ++ after).lookup name = none := by
  apply List.lookup_eq_none_iff.mpr
  intro p hp
  rw [List.map_append, List.map_cons, List.nodup_middle, List.nodup_cons, ← List.map_append] at h
  have hne : name ≠ p.1 := by
    rintro rfl
    exact h.1 (List.mem_map.mpr ⟨p, hp, rfl⟩)
  simpa using hne

theorem lookup_eq_some_iff_mem (h : (l.map (·.1)).Nodup) :
    l.lookup name = some v ↔ (name, v) ∈ l := by
  constructor
  · intro hlookup
    obtain ⟨before, after, rfl, -⟩ := List.lookup_eq_some_iff.mp hlookup
    exact List.mem_append_right _ List.mem_cons_self
  · intro hmem
    obtain ⟨before, after, rfl⟩ := List.append_of_mem hmem
    exact lookup_middle h

theorem lookup_perm {l' : List (String × β)} (h : l.Perm l') (hnodup : (l.map (·.1)).Nodup) :
    l'.lookup name = l.lookup name := by
  apply Option.ext
  intro v
  rw [lookup_eq_some_iff_mem hnodup, lookup_eq_some_iff_mem ((h.map _).nodup_iff.mp hnodup),
    h.mem_iff]

end Overseer
