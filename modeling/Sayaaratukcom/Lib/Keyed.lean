import Mathlib.Logic.Function.Basic

/-!
# Keyed collections

A collection maps keys to documents, and every document carries the key it is
stored under: `key_get` is part of the type, so no operation can file a
document in the wrong place.
-/

/-- Documents of type `D`, each stored under its own `key`. -/
structure Keyed {K D : Type*} (key : D → K) where
  get : K → Option D
  key_get : ∀ {k d}, get k = some d → key d = k

namespace Keyed

variable {K D : Type*} {key : D → K}

@[ext] theorem ext {c c' : Keyed key} (h : ∀ k, c.get k = c'.get k) : c = c' := by
  cases c; cases c'
  congr 1
  exact funext h

def empty : Keyed key := ⟨fun _ => none, by simp⟩

@[simp] theorem get_empty (k : K) : (empty : Keyed key).get k = none := rfl

variable [DecidableEq K]

def put (c : Keyed key) (d : D) : Keyed key where
  get := Function.update c.get (key d) (some d)
  key_get {k e} h := by
    by_cases hk : k = key d
    · subst hk
      rw [Function.update_self] at h
      rw [Option.some.inj h]
    · rw [Function.update_of_ne hk] at h
      exact c.key_get h

theorem get_put (c : Keyed key) (d : D) (k : K) :
    (c.put d).get k = if k = key d then some d else c.get k := by
  simp only [put, Function.update_apply]

@[simp] theorem get_put_self (c : Keyed key) (d : D) : (c.put d).get (key d) = some d := by
  rw [get_put, if_pos rfl]

theorem put_put (c : Keyed key) {d e : D} (h : key d = key e) : (c.put d).put e = c.put e := by
  ext1 k
  simp only [get_put, h]
  split <;> rfl

def modify (c : Keyed key) (k : K) (f : D → D) : Option (Keyed key) :=
  (c.get k).map fun d => c.put (f d)

theorem modify_eq_some {c c' : Keyed key} {k : K} {f : D → D} :
    c.modify k f = some c' ↔ ∃ d, c.get k = some d ∧ c' = c.put (f d) := by
  rw [modify, Option.map_eq_some_iff]
  simp only [eq_comm]

/-- Replacing the document under `k` by one with the same key changes no other
key. -/
theorem get_put_of_get {c : Keyed key} {k : K} {d e : D} (h : c.get k = some d) (he : key e = key d)
    (k' : K) : (c.put e).get k' = if k' = k then some e else c.get k' := by
  rw [get_put, he, c.key_get h]

end Keyed
