import Sayaaratukcom.Lib.Script

/-!
# Starting a script again

A script that an error ended half-way can be started again from its first write.
If each of its writes may be made twice, and any two of them in either order, the
writes that were made before do not show in the end.
-/

namespace Script

variable {σ W : Type*} (apply : W → σ → Option σ)

def Twice (w : W) : Prop := ∀ s s', apply w s = some s' → apply w s' = some s'

/-- A state that takes both writes takes them in either order. -/
def Diamond (w u : W) : Prop := ∀ s s₁ s₂, apply w s = some s₁ → apply u s = some s₂ →
  ∃ t, apply u s₁ = some t ∧ apply w s₂ = some t

structure Repeatable (ws : List W) : Prop where
  twice : ∀ w ∈ ws, Twice apply w
  diamond : ws.Pairwise (Diamond apply)

/-- The script without faults of its own. -/
def undisturbed (ws : List W) (s : σ) : σ × Bool := exec apply (fun _ => false) ws s

variable {apply} {w u : W} {ws vs us : List W} {s s' t : σ}

theorem Diamond.symm (h : Diamond apply w u) : Diamond apply u w := by
  intro s s₁ s₂ h₁ h₂
  obtain ⟨t, ht₂, ht₁⟩ := h s s₂ s₁ h₂ h₁
  exact ⟨t, ht₁, ht₂⟩

theorem Repeatable.sublist (h : Repeatable apply ws) (hv : vs.Sublist ws) : Repeatable apply vs :=
  ⟨fun w hw => h.twice w (hv.subset hw), h.diamond.sublist hv⟩

theorem undisturbed_cons (h : apply w s = some s') :
    undisturbed apply (w :: ws) s = undisturbed apply ws s' := exec_landed rfl h

/-- One write of the part that can be made does not show once that part is made. -/
theorem undisturbed_of_write (us : List W) (h : Repeatable apply vs) (hw : w ∈ vs) (hs : apply w s = some s')
    (hr : Runs.run (fun s w => apply w s) s vs = some t) :
    Runs.run (fun s w => apply w s) s' vs = some t ∧
      undisturbed apply (vs ++ us) s' = undisturbed apply (vs ++ us) s := by
  induction vs generalizing s s' with
  | nil => cases hw
  | cons u vs ih =>
    obtain ⟨s₁, hu, hr⟩ := (Runs.run_cons_eq_some _).mp hr
    obtain ⟨hdia, -⟩ := List.pairwise_cons.mp h.diamond
    rcases List.mem_cons.mp hw with rfl | hw
    · obtain rfl := Option.some.inj (hs.symm.trans hu)
      have htwice := h.twice w (List.mem_cons_self ..) s s' hs
      refine ⟨(Runs.run_cons_eq_some _).mpr ⟨s', htwice, hr⟩, ?_⟩
      rw [List.cons_append, undisturbed_cons htwice, undisturbed_cons hs]
    · -- the write is made after `u` instead
      obtain ⟨s₂, hu₂, hw₂⟩ := (hdia w hw).symm s s' s₁ hs hu
      obtain ⟨hrun, hend⟩ := ih (h.sublist (List.sublist_cons_self ..)) hw hw₂ hr
      refine ⟨(Runs.run_cons_eq_some _).mpr ⟨s₂, hu₂, hrun⟩, ?_⟩
      rw [List.cons_append, undisturbed_cons hu₂, undisturbed_cons hu]
      exact hend

theorem undisturbed_of_run (us : List W) (h : Repeatable apply vs) (hsub : ws ⊆ vs)
    (hr : Runs.run (fun s w => apply w s) s vs = some t) (hs : Runs.run (fun s w => apply w s) s ws = some s') :
    undisturbed apply (vs ++ us) s' = undisturbed apply (vs ++ us) s := by
  induction ws generalizing s with
  | nil =>
    obtain rfl := Option.some.inj hs
    rfl
  | cons w ws ih =>
    obtain ⟨s₁, hw, hs⟩ := (Runs.run_cons_eq_some _).mp hs
    obtain ⟨hr₁, hend⟩ := undisturbed_of_write us h (hsub (List.mem_cons_self ..)) hw hr
    rw [ih (fun v hv => hsub (List.mem_cons_of_mem _ hv)) hr₁ hs]
    exact hend

/-- An attempt before, wherever it stopped, does not show. -/
theorem undisturbed_again (h : Repeatable apply ws) (fault : ℕ → Bool) (s : σ) :
    undisturbed apply ws (exec apply fault ws s).1 = undisturbed apply ws s := by
  obtain ⟨k, -, hr, -⟩ := @Script.exec_prefix _ _ apply fault ws s
  have hend := undisturbed_of_run (ws.drop k) (h.sublist (List.take_sublist k ws)) (List.Subset.refl _) hr hr
  rwa [List.take_append_drop] at hend

end Script
