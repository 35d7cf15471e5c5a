import Mathlib.Data.List.Basic

/-!
# Paths

The updates of a value are edges from what it was to what it became, and a log
of them is a path. Along a path a predicate becomes true as often as it becomes
false again, up to its value at the two ends.
-/

namespace Paths

variable {σ : Type*}

def IsPath : σ → List (σ × σ) → σ → Prop
  | s, [], t => s = t
  | s, e :: es, t => e.1 = s ∧ IsPath e.2 es t

variable {s t : σ} {e : σ × σ} {es : List (σ × σ)}

@[simp] theorem isPath_nil : IsPath s [] t ↔ s = t := Iff.rfl

theorem isPath_cons : IsPath s (e :: es) t ↔ e.1 = s ∧ IsPath e.2 es t := Iff.rfl

theorem isPath_snoc : IsPath s (es ++ [e]) t ↔ IsPath s es e.1 ∧ e.2 = t := by
  induction es generalizing s with
  | nil => simp [isPath_cons, eq_comm]
  | cons e' es ih => rw [List.cons_append, isPath_cons, ih, isPath_cons, and_assoc]

/-! ## Entries and exits -/

section
variable (P : σ → Prop) [DecidablePred P]

def entries (es : List (σ × σ)) : ℕ := es.countP fun e => ¬ P e.1 ∧ P e.2

def exits (es : List (σ × σ)) : ℕ := es.countP fun e => P e.1 ∧ ¬ P e.2

theorem entries_add (h : IsPath s es t) :
    entries P es + (if P s then 1 else 0) = exits P es + (if P t then 1 else 0) := by
  induction es generalizing s with
  | nil =>
    obtain rfl := isPath_nil.mp h
    rfl
  | cons e es ih =>
    obtain ⟨rfl, htail⟩ := isPath_cons.mp h
    have := ih htail
    simp only [entries, exits, List.countP_cons] at this ⊢
    by_cases h1 : P e.1 <;> by_cases h2 : P e.2 <;> simp [h1, h2] at this ⊢ <;> omega

end

end Paths
