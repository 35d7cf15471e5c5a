import Sayaaratukcom.Lib.Runs

/-!
# Pools of threads

A thread is a call and the number of writes of its program it has made. The
pool is a list that only grows; `adv` moves one thread on by one write, and
`halt` ends one. The lemmas turn statements about the threads of a pool before
and after a move into statements about the thread that moved and about the
others.
-/

namespace Threads

structure Thread (C : Type*) where
  call : C
  pc : ℕ
  deriving DecidableEq

variable {C W : Type*} (prog : C → List W)

def Thread.next (t : Thread C) : Option W := (prog t.call)[t.pc]?

def Thread.bump (t : Thread C) : Thread C := { t with pc := t.pc + 1 }

def Thread.Live (t : Thread C) : Prop := t.pc < (prog t.call).length

def Thread.Midway (t : Thread C) : Prop := 0 < t.pc ∧ t.pc < (prog t.call).length

instance (t : Thread C) : Decidable (t.Live prog) := Nat.decLt _ _

instance (t : Thread C) : Decidable (t.Midway prog) := instDecidableAnd

@[simp] theorem Thread.bump_call (t : Thread C) : t.bump.call = t.call := rfl

@[simp] theorem Thread.bump_pc (t : Thread C) : t.bump.pc = t.pc + 1 := rfl

def adv (pool : List (Thread C)) (i : ℕ) : List (Thread C) := pool.modify i Thread.bump

variable {pool : List (Thread C)} {i : ℕ} {t : Thread C}

@[simp] theorem map_call_adv : (adv pool i).map Thread.call = pool.map Thread.call := by
  apply List.ext_getElem?
  intro j
  rw [List.getElem?_map, List.getElem?_map, adv, List.getElem?_modify]
  cases pool[j]? with
  | none => rfl
  | some t => by_cases h : i = j <;> simp [h]

theorem adv_self (h : pool[i]? = some t) : (adv pool i)[i]? = some t.bump := by
  rw [adv, List.getElem?_modify, h]
  simp

theorem adv_of_ne {j : ℕ} (h : i ≠ j) : (adv pool i)[j]? = pool[j]? := by
  rw [adv, List.getElem?_modify]
  simp [h]

/-- Thread `i` ends where it stands. -/
def halt (pool : List (Thread C)) (i : ℕ) : List (Thread C) :=
  pool.modify i fun t => { t with pc := (prog t.call).length }

@[simp] theorem map_call_halt : (halt prog pool i).map Thread.call = pool.map Thread.call := by
  apply List.ext_getElem?
  intro j
  rw [List.getElem?_map, List.getElem?_map, halt, List.getElem?_modify]
  cases pool[j]? with
  | none => rfl
  | some t => by_cases h : i = j <;> simp [h]

variable {prog} in
theorem mem_halt {t' : Thread C} (h : t' ∈ halt prog pool i) : ¬ t'.Live prog ∨ t' ∈ pool := by
  obtain ⟨j, hj⟩ := List.mem_iff_getElem?.mp h
  rw [halt, List.getElem?_modify] at hj
  obtain ⟨t, ht, hj⟩ := Option.map_eq_some_iff.mp hj
  subst hj
  by_cases hij : i = j
  · rw [if_pos hij]
    exact Or.inl (Nat.lt_irrefl _)
  · rw [if_neg hij]
    exact Or.inr (List.mem_of_getElem? ht)

theorem mem_adv {t' : Thread C} (ht : pool[i]? = some t) (h : t' ∈ adv pool i) :
    t' = t.bump ∨ t' ∈ pool := by
  obtain ⟨j, hj⟩ := List.mem_iff_getElem?.mp h
  by_cases hij : i = j
  · subst hij
    rw [adv_self ht] at hj
    exact Or.inl (Option.some.inj hj).symm
  · rw [adv_of_ne hij] at hj
    exact Or.inr (List.mem_of_getElem? hj)

theorem bump_mem_adv (ht : pool[i]? = some t) : t.bump ∈ adv pool i :=
  List.mem_of_getElem? (adv_self ht)

/-- The number of writes that are still to be made. -/
def remaining : List (Thread C) → ℕ
  | [] => 0
  | t :: pool => (prog t.call).length - t.pc + remaining pool

variable {prog} in
theorem remaining_adv (h : t.Live prog) : ∀ {pool : List (Thread C)} {i : ℕ}, pool[i]? = some t →
    remaining prog (adv pool i) + 1 = remaining prog pool
  | [], _, ht => nomatch ht
  | t' :: pool, 0, ht => by
    obtain rfl := Option.some.inj ht
    rw [Thread.Live] at h
    simp only [remaining, adv, List.modify_zero_cons, Thread.bump_call, Thread.bump_pc]
    omega
  | t' :: pool, i + 1, ht => by
    have ht : pool[i]? = some t := ht
    have ih := remaining_adv h ht
    simp only [remaining, adv, List.modify_succ_cons] at ih ⊢
    omega

theorem countP_adv {p : Thread C → Bool} : ∀ {pool : List (Thread C)} {i : ℕ}, pool[i]? = some t →
    (adv pool i).countP p + (if p t then 1 else 0) = pool.countP p + (if p t.bump then 1 else 0)
  | [], _, ht => nomatch ht
  | t' :: pool, 0, ht => by
    obtain rfl := Option.some.inj ht
    simp only [adv, List.modify_zero_cons, List.countP_cons]
    omega
  | t' :: pool, i + 1, ht => by
    have ht : pool[i]? = some t := ht
    have ih := @countP_adv p pool i ht
    simp only [adv, List.modify_succ_cons, List.countP_cons] at ih ⊢
    omega

theorem exists_adv {P : Thread C → Prop} (ht : pool[i]? = some t) (h : ∃ t' ∈ adv pool i, P t') :
    P t.bump ∨ ∃ t' ∈ pool, P t' := by
  obtain ⟨t', hm, hp⟩ := h
  rcases mem_adv ht hm with rfl | hm
  · exact Or.inl hp
  · exact Or.inr ⟨t', hm, hp⟩

theorem mem_adv_of_mem {t' : Thread C} (ht : pool[i]? = some t) (h : t' ∈ pool) :
    t' = t ∨ t' ∈ adv pool i := by
  obtain ⟨j, hj⟩ := List.mem_iff_getElem?.mp h
  by_cases hij : i = j
  · subst hij
    rw [ht] at hj
    exact Or.inl (Option.some.inj hj).symm
  · exact Or.inr (List.mem_of_getElem? (by rw [adv_of_ne hij, hj]))

theorem exists_of_adv {P : Thread C → Prop} (ht : pool[i]? = some t) (h : ∃ t' ∈ pool, P t') :
    P t ∨ ∃ t' ∈ adv pool i, P t' := by
  obtain ⟨t', hm, hp⟩ := h
  rcases mem_adv_of_mem ht hm with rfl | hm
  · exact Or.inl hp
  · exact Or.inr ⟨t', hm, hp⟩

end Threads
