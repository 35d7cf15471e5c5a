import Mathlib.Data.List.Basic

/-!
# Navigators

A navigator shows the route at the head of its stack. A route that is popped
leaves by a transition, and its page is mounted until the transition has ended.
A pop that is made for a page throws once the page is no longer mounted; before
that it removes the route that is shown, whichever it is.
-/

structure Navigator (ρ : Type*) where
  routes : List ρ
  leaving : List ρ

namespace Navigator

variable {ρ : Type*}

def push (n : Navigator ρ) (r : ρ) : Navigator ρ := { n with routes := r :: n.routes }

def pop (n : Navigator ρ) : Navigator ρ :=
  match n.routes with
  | [] => n
  | r :: routes => ⟨routes, r :: n.leaving⟩

def Mounted (n : Navigator ρ) (page : ρ) : Prop := page ∈ n.routes ∨ page ∈ n.leaving

variable [DecidableEq ρ]

instance (n : Navigator ρ) (page : ρ) : Decidable (n.Mounted page) := instDecidableOr

/-- The pop of a page; it throws when the page is not mounted. -/
def popFrom (n : Navigator ρ) (page : ρ) : Option (Navigator ρ) := if n.Mounted page then some n.pop else none

/-- The transition of a route that leaves has ended. -/
def settle (n : Navigator ρ) (r : ρ) : Option (Navigator ρ) :=
  if r ∈ n.leaving then some { n with leaving := n.leaving.erase r } else none

variable {n : Navigator ρ} {r page : ρ} {routes : List ρ}

omit [DecidableEq ρ] in
@[simp] theorem routes_pop : n.pop.routes = n.routes.tail := by
  obtain ⟨routes, leaving⟩ := n
  cases routes <;> rfl

omit [DecidableEq ρ] in
@[simp] theorem mounted_pop : n.pop.Mounted page ↔ n.Mounted page := by
  obtain ⟨routes, leaving⟩ := n
  cases routes with
  | nil => rfl
  | cons r routes =>
    simp only [pop, Mounted, List.mem_cons]
    tauto

theorem popFrom_of_mounted (h : n.Mounted page) : n.popFrom page = some n.pop := if_pos h

theorem popFrom_of_not_mounted (h : ¬ n.Mounted page) : n.popFrom page = none := if_neg h

theorem routes_settle {n' : Navigator ρ} (h : n.settle r = some n') : n'.routes = n.routes := by
  obtain ⟨-, rfl⟩ := Option.ite_some_none_eq_some.mp h
  rfl

end Navigator
