import Sayaaratukcom.Lib.Runs

/-!
# Scripts of awaited writes

A script is the body of a `try` block that awaits one write after another. The
first write that reports an error ends it, and there is no rollback: what a
script leaves behind is the effect of a prefix of its writes (`exec_prefix`).
-/

namespace Script

variable {σ W : Type*} (apply : W → σ → Option σ)

/-- The store a script leaves, and whether it got to its end. Write `i` fails
when `fault i`, or when the store does not take it. -/
def exec : (ℕ → Bool) → List W → σ → σ × Bool
  | _, [], s => (s, true)
  | fault, w :: ws, s =>
    if fault 0 then (s, false)
    else
      match apply w s with
      | none => (s, false)
      | some s' => exec (fun i => fault (i + 1)) ws s'

variable {apply} {fault : ℕ → Bool} {w : W} {ws : List W} {s s' : σ}

@[simp] theorem exec_nil : exec apply fault [] s = (s, true) := rfl

theorem exec_fault (h : fault 0 = true) : exec apply fault (w :: ws) s = (s, false) := by
  rw [exec, if_pos h]

theorem exec_refused (h : apply w s = none) : exec apply fault (w :: ws) s = (s, false) := by
  rw [exec, h]
  exact ite_self _

theorem exec_landed (h0 : fault 0 = false) (h : apply w s = some s') :
    exec apply fault (w :: ws) s = exec apply (fun i => fault (i + 1)) ws s' := by
  rw [exec, h0, h]
  rfl

/-- A script leaves the effect of a prefix of its writes, and of all of them
exactly when it got to its end. -/
theorem exec_prefix : ∀ (fault : ℕ → Bool) (ws : List W) (s : σ), ∃ k ≤ ws.length,
    Runs.run (fun s w => apply w s) s (ws.take k) = some (exec apply fault ws s).1 ∧
      ((exec apply fault ws s).2 = true ↔ k = ws.length)
  | _, [], s => ⟨0, Nat.le_refl 0, rfl, by simp⟩
  | fault, w :: ws, s => by
    by_cases h0 : fault 0 = true
    · exact ⟨0, Nat.zero_le _, by rw [exec_fault h0]; rfl, by simp [exec_fault h0]⟩
    · cases h : apply w s with
      | none => exact ⟨0, Nat.zero_le _, by rw [exec_refused h]; rfl, by simp [exec_refused h]⟩
      | some s' =>
        obtain ⟨k, hk, hr, hc⟩ := exec_prefix (fun i => fault (i + 1)) ws s'
        have he : exec apply fault (w :: ws) s = _ := exec_landed (by simpa using h0) h
        refine ⟨k + 1, Nat.succ_le_succ hk, ?_, ?_⟩
        · rw [he, List.take_succ_cons, Runs.run_cons, h]
          exact hr
        · rw [he, hc, List.length_cons, Nat.add_right_cancel_iff]

end Script
