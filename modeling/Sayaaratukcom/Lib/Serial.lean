import Mathlib.Logic.Function.Basic
import Sayaaratukcom.Lib.Threads

/-!
# Calls as if made whole

The state is a family of regions, and every call writes to a region of its own.
Where at most one call is half-way in a region, the region holds what the ended
calls leave when each of them is made whole, and the first writes of the one
that is half-way.
-/

namespace Threads

section
variable {C W K V : Type*} (key : C → K) (prog : C → List W) (eff : W → V → V)

def effs (ws : List W) (v : V) : V := ws.foldl (fun v w => eff w v) v

/-- All writes of a call, made at once. -/
def whole [DecidableEq K] (g : K → V) (c : C) : K → V :=
  Function.update g (key c) (effs eff (prog c) (g (key c)))

def Free (pool : List (Thread C)) (k : K) : Prop := ∀ t ∈ pool, key t.call = k → ¬ t.Midway prog

/-- Thread `i` is the one that is half-way in region `k`, and the region has its
first writes. -/
def Held (g v : K → V) (pool : List (Thread C)) (k : K) (i : ℕ) (t : Thread C) : Prop :=
  pool[i]? = some t ∧ key t.call = k ∧ t.Midway prog ∧ v k = effs eff ((prog t.call).take t.pc) (g k) ∧
    ∀ j t', pool[j]? = some t' → key t'.call = k → t'.Midway prog → j = i

/-- The regions are `g` up to the writes of calls that are half-way. -/
def Serial (g v : K → V) (pool : List (Thread C)) : Prop :=
  ∀ k, Free key prog pool k ∧ v k = g k ∨ ∃ i t, Held key prog eff g v pool k i t

end

variable {C W K V : Type*} {key : C → K} {prog : C → List W} {eff : W → V → V}
  {g v : K → V} {pool : List (Thread C)} {i : ℕ} {t : Thread C} {k : K} {wr : W}

theorem live_of_next (h : t.next prog = some wr) : t.pc < (prog t.call).length :=
  (List.getElem?_eq_some_iff.mp h).1

theorem effs_take_succ (h : t.next prog = some wr) (x : V) :
    effs eff ((prog t.call).take (t.pc + 1)) x = eff wr (effs eff ((prog t.call).take t.pc) x) := by
  rw [List.take_add_one, show (prog t.call)[t.pc]? = some wr from h]
  simp [effs, List.foldl_append]

theorem serial_init (g : K → V) : Serial key prog eff g g [] :=
  fun _ => Or.inl ⟨fun _ ht => (nomatch ht), rfl⟩

/-- Where no call is half-way the calls that have ended are all there is. -/
theorem serial_rest (h : Serial key prog eff g v pool) (hq : ∀ t ∈ pool, ¬ t.Midway prog) : v = g := by
  funext k
  rcases h k with ⟨-, hv⟩ | ⟨i, t, hi, -, hm, -⟩
  · exact hv
  · exact absurd hm (hq t (List.mem_of_getElem? hi))

theorem free_start (c : C) (h : Free key prog pool k) : Free key prog (pool ++ [⟨c, 0⟩]) k := by
  intro t ht hk hm
  rcases List.mem_append.mp ht with ht | ht
  · exact h t ht hk hm
  · rw [List.mem_singleton.mp ht] at hm
    exact absurd hm.1 (Nat.lt_irrefl 0)

theorem serial_start (c : C) (h : Serial key prog eff g v pool) : Serial key prog eff g v (pool ++ [⟨c, 0⟩]) := by
  intro k
  rcases h k with ⟨hf, hv⟩ | ⟨i, t, hi, hk, hm, hv, huniq⟩
  · exact Or.inl ⟨free_start c hf, hv⟩
  · refine Or.inr ⟨i, t, ?_, hk, hm, hv, fun j t' hj hk' hm' => ?_⟩
    · rw [List.getElem?_append_left (List.getElem?_eq_some_iff.mp hi).1, hi]
    · rcases Nat.lt_or_ge j pool.length with hlt | hge
      · rw [List.getElem?_append_left hlt] at hj
        exact huniq j t' hj hk' hm'
      · rw [List.getElem?_append_right hge, List.getElem?_singleton] at hj
        split at hj
        · obtain rfl := Option.some.inj hj
          exact absurd hm'.1 (Nat.lt_irrefl 0)
        · cases hj

/-! ## One write -/

section
variable (hi : pool[i]? = some t) (hn : t.next prog = some wr)
  (halone : t.pc = 0 → Free key prog pool (key t.call))
include hi hn halone

/-- The region of the thread that writes has exactly its first writes. -/
theorem region_of_next (h : Serial key prog eff g v pool) :
    v (key t.call) = effs eff ((prog t.call).take t.pc) (g (key t.call)) := by
  rcases h (key t.call) with ⟨hf, hv⟩ | ⟨j, t', hj, hk, hm, hv, huniq⟩
  · have h0 : t.pc = 0 := by
      by_contra h0
      exact hf t (List.mem_of_getElem? hi) rfl ⟨Nat.pos_of_ne_zero h0, live_of_next hn⟩
    rw [hv, h0]
    rfl
  · have h0 : t.pc ≠ 0 := fun h0 => halone h0 t' (List.mem_of_getElem? hj) hk hm
    obtain rfl := huniq i t hi rfl ⟨Nat.pos_of_ne_zero h0, live_of_next hn⟩
    obtain rfl := Option.some.inj (hi.symm.trans hj)
    exact hv

theorem midway_of_next (h : Serial key prog eff g v pool) {j : ℕ} {t' : Thread C} (hj : pool[j]? = some t')
    (hk : key t'.call = key t.call) (hm : t'.Midway prog) : j = i := by
  rcases h (key t.call) with ⟨hf, -⟩ | ⟨i', t₁, hi', hk₁, hm₁, -, huniq⟩
  · exact absurd hm (hf t' (List.mem_of_getElem? hj) hk)
  · have h0 : t.pc ≠ 0 := fun h0 => halone h0 t₁ (List.mem_of_getElem? hi') hk₁ hm₁
    exact (huniq j t' hj hk hm).trans (huniq i t hi rfl ⟨Nat.pos_of_ne_zero h0, live_of_next hn⟩).symm

theorem midway_adv (h : Serial key prog eff g v pool) {j : ℕ} {t' : Thread C} (hj : (adv pool i)[j]? = some t')
    (hk : key t'.call = key t.call) (hm : t'.Midway prog) : j = i ∧ t' = t.bump := by
  by_cases hij : i = j
  · subst hij
    exact ⟨rfl, Option.some.inj (hj.symm.trans (adv_self hi))⟩
  · rw [adv_of_ne hij] at hj
    exact absurd (midway_of_next hi hn halone h hj hk hm).symm hij

variable [DecidableEq K]

theorem held_or_free_self (h : Serial key prog eff g v pool) :
    let v' := Function.update v (key t.call) (eff wr (v (key t.call)))
    if t.bump.Live prog then Held key prog eff g v' (adv pool i) (key t.call) i t.bump
    else Free key prog (adv pool i) (key t.call) ∧ v' (key t.call) = whole key prog eff g t.call (key t.call) := by
  have hv : Function.update v (key t.call) (eff wr (v (key t.call))) (key t.call) =
      effs eff ((prog t.call).take (t.pc + 1)) (g (key t.call)) := by
    rw [Function.update_self, region_of_next hi hn halone h, effs_take_succ hn]
  split
  · rename_i hl
    exact ⟨adv_self hi, rfl, ⟨Nat.succ_pos _, hl⟩, hv, fun j t' hj hk hm => (midway_adv hi hn halone h hj hk hm).1⟩
  · rename_i hl
    refine ⟨fun t' ht' hk hm => ?_, ?_⟩
    · obtain ⟨j, hj⟩ := List.mem_iff_getElem?.mp ht'
      obtain ⟨-, rfl⟩ := midway_adv hi hn halone h hj hk hm
      exact hl hm.2
    · have hall : (prog t.call).take (t.pc + 1) = prog t.call := List.take_of_length_le (Nat.le_of_not_lt hl)
      rw [hv, hall, whole, Function.update_self]

omit hn halone [DecidableEq K] in
theorem held_or_free_other (hk : k ≠ key t.call) {g' v' : K → V} (hv' : v' k = v k) (hg' : g' k = g k)
    (h : Serial key prog eff g v pool) :
    Free key prog (adv pool i) k ∧ v' k = g' k ∨ ∃ j t', Held key prog eff g' v' (adv pool i) k j t' := by
  rcases h k with ⟨hf, hv⟩ | ⟨j, t', hj, hk', hm, hv, huniq⟩
  · refine Or.inl ⟨fun t' ht' hk' hm => ?_, ?_⟩
    · rcases mem_adv hi ht' with rfl | ht'
      · exact hk hk'.symm
      · exact hf t' ht' hk' hm
    · rw [hv', hv, hg']
  · have hij : i ≠ j := by
      rintro rfl
      obtain rfl := Option.some.inj (hi.symm.trans hj)
      exact hk hk'.symm
    refine Or.inr ⟨j, t', by rw [adv_of_ne hij, hj], hk', hm, by rw [hv', hv, hg'], fun j' t₁ hj' hk₁ hm₁ => ?_⟩
    by_cases hij' : i = j'
    · subst hij'
      obtain rfl := Option.some.inj (hj'.symm.trans (adv_self hi))
      exact absurd hk₁.symm hk
    · rw [adv_of_ne hij'] at hj'
      exact huniq j' t₁ hj' hk₁ hm₁

/-- A call is counted as whole with the last of its writes. -/
theorem serial_write (h : Serial key prog eff g v pool) :
    Serial key prog eff (if t.bump.Live prog then g else whole key prog eff g t.call)
      (Function.update v (key t.call) (eff wr (v (key t.call)))) (adv pool i) := by
  intro k
  by_cases hk : k = key t.call
  · subst hk
    have hself := held_or_free_self hi hn halone h
    by_cases hl : t.bump.Live prog
    · rw [if_pos hl] at hself ⊢
      exact Or.inr ⟨i, t.bump, hself⟩
    · rw [if_neg hl] at hself ⊢
      exact Or.inl hself
  · refine held_or_free_other hi hk (Function.update_of_ne hk ..) ?_ h
    split
    · rfl
    · exact Function.update_of_ne hk ..

end

end Threads
