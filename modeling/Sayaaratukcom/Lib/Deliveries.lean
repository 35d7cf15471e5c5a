import Mathlib.Data.List.Perm.Subperm

/-!
# Deliveries in any order

Events are delivered by their positions in a log. Positions that do not repeat
receive each event at most once, and all positions give the log itself, up to the
order.
-/

namespace Deliveries

variable {α : Type*}

def received (log : List α) (is : List ℕ) : List α := is.filterMap fun i => log[i]?

variable {log : List α} {is : List ℕ}

theorem received_range (log : List α) : received log (List.range log.length) = log := by
  induction log with
  | nil => rfl
  | cons a log ih =>
    rw [received, List.length_cons, List.range_succ_eq_map, List.filterMap_cons, List.filterMap_map]
    exact congrArg (a :: ·) ih

theorem received_subperm (hn : is.Nodup) (hlt : ∀ i ∈ is, i < log.length) : List.Subperm (received log is) log := by
  have hsub : is ⊆ List.range log.length := fun i hi => List.mem_range.mpr (hlt i hi)
  obtain ⟨js, hperm, hle⟩ := List.subperm_of_subset hn hsub
  have h : List.Sublist (received log js) (received log (List.range log.length)) := hle.filterMap _
  rw [received_range] at h
  exact ⟨received log js, hperm.filterMap _, h⟩

theorem received_perm (hn : is.Nodup) (hlt : ∀ i ∈ is, i < log.length) (hall : ∀ i < log.length, i ∈ is) :
    (received log is).Perm log := by
  have hperm : is.Perm (List.range log.length) := by
    refine (List.perm_ext_iff_of_nodup hn List.nodup_range).mpr fun i => ?_
    rw [List.mem_range]
    exact ⟨hlt i, hall i⟩
  have h := hperm.filterMap fun i => log[i]?
  rwa [← received, ← received, received_range] at h

end Deliveries
