import Sayaaratukcom.Lib.Navigator
import Sayaaratukcom.SendOrder
import Sayaaratukcom.Session

/-!
# Repeated taps

The accept button of an offer sheet and the OK button of the cancel dialog stay
on while their calls are under way, so a user can start any number of calls. Each
call that completes pops twice for the page that made it: the first two pops
close the sheet or dialog and the order page, and the next two, while that page is
still mounted, close what is below.
-/

namespace Sayaaratukcom

/-- The accept button of an offer that is paid in cash, or the OK button of the
cancel dialog. -/
inductive TapButton where
  | accept
  | ok
  deriving DecidableEq

inductive OrderRoute where
  | overlay -- the offer sheet or the dialog
  | orderPage
  | below (page : Page)
  deriving DecidableEq

def TapButton.writes (b : TapButton) (orderId offerId : String) : List Write :=
  match b with
  | .accept => acceptWrites orderId offerId
  | .ok => cancelWrites orderId offerId

/-- The page whose context the call has: the sheet has its own, and the dialog
calls with the one of the order page. -/
def TapButton.caller : TapButton → OrderRoute
  | .accept => .overlay
  | .ok => .orderPage

structure TapState where
  store : Store
  navigator : Navigator OrderRoute
  calls : List (List Write) -- the writes that are to come; none when the call has ended

inductive TapEvent where
  | tap
  | write (i : ℕ) (fails : Bool)
  | settle (r : OrderRoute) -- it has left the screen
  deriving DecidableEq

/-- The end of a `try` block: the second pop is not made when the first throws. -/
def popTwice (n : Navigator OrderRoute) (page : OrderRoute) : Navigator OrderRoute :=
  match n.popFrom page with
  | none => n
  | some n => (n.popFrom page).getD n

namespace TapState

def onOrder (st : Store) (below : List Page) : TapState :=
  ⟨st, ⟨.overlay :: .orderPage :: .below .navigation :: below.map .below, []⟩, []⟩

def step (asserts : Bool) (b : TapButton) (orderId offerId : String) (s : TapState) : TapEvent → Option TapState
  | .tap =>
    if s.navigator.Mounted .overlay then
      -- a reference that throws ends the call before its `try` block
      some (if refThrows asserts orderId offerId then s
        else { s with calls := s.calls ++ [b.writes orderId offerId] })
    else none
  | .write i fails =>
    match s.calls[i]? with
    | none | some [] => none
    | some (w :: ws) =>
      let ended := { s with calls := s.calls.set i [] }
      if fails then some ended
      else
        match w.apply s.store with
        | none => some ended
        | some st =>
          if ws = [] then some { ended with store := st, navigator := popTwice s.navigator b.caller }
          else some { s with store := st, calls := s.calls.set i ws }
  | .settle r => (s.navigator.settle r).map fun navigator => { s with navigator }

end TapState

/-! ## Which routes are removed -/

def KeepsBelow (below : List Page) (s : TapState) : Prop :=
  (.below .navigation :: below.map OrderRoute.below) <:+ s.navigator.routes

def TapState.Completes (s : TapState) (i : ℕ) (fails : Bool) : Prop :=
  ∃ w, s.calls[i]? = some [w] ∧ fails = false ∧ (w.apply s.store).isSome

/-- A call that completes while its page is mounted finds the sheet or dialog on
the screen: no call has popped before. -/
def ClosesOnce (b : TapButton) (s : TapState) : TapEvent → Prop
  | .write i fails =>
    s.Completes i fails → s.navigator.Mounted b.caller → s.navigator.routes.head? = some .overlay
  | .tap | .settle _ => True

section
variable {asserts : Bool} {b : TapButton} {o f : String} {below : List Page} {s s' : TapState} {e : TapEvent}

theorem routes_popTwice {n : Navigator OrderRoute} {page : OrderRoute} :
    (popTwice n page).routes = if n.Mounted page then n.routes.tail.tail else n.routes := by
  unfold popTwice
  split_ifs with h
  · rw [Navigator.popFrom_of_mounted h]
    simp only [Navigator.popFrom_of_mounted (Navigator.mounted_pop.mpr h), Option.getD_some, Navigator.routes_pop]
  · rw [Navigator.popFrom_of_not_mounted h]

theorem tap_step (h : s.step asserts b o f e = some s') :
    s'.navigator.routes = s.navigator.routes ∧ (∀ i fails, e = .write i fails → ¬ s.Completes i fails) ∨
    ∃ i fails, e = .write i fails ∧ s.Completes i fails ∧ s'.navigator = popTwice s.navigator b.caller := by
  cases e with
  | tap =>
    obtain ⟨-, rfl⟩ := Option.ite_some_none_eq_some.mp h
    refine Or.inl ⟨?_, fun _ _ he => by cases he⟩
    split <;> rfl
  | settle r =>
    obtain ⟨n, hn, rfl⟩ := Option.map_eq_some_iff.mp h
    exact Or.inl ⟨Navigator.routes_settle hn, fun _ _ he => by cases he⟩
  | write i fails =>
    simp only [TapState.step] at h
    split at h
    · cases h
    · cases h
    rename_i w ws hc
    split at h
    · rename_i hf
      obtain rfl := Option.some.inj h
      refine Or.inl ⟨rfl, fun j fails' he hcomp => ?_⟩
      cases he
      obtain ⟨-, -, hfalse, -⟩ := hcomp
      rw [hf] at hfalse
      cases hfalse
    rename_i hf
    split at h
    · rename_i hw
      obtain rfl := Option.some.inj h
      refine Or.inl ⟨rfl, fun j fails' he hcomp => ?_⟩
      cases he
      obtain ⟨w', hw', -, hsome⟩ := hcomp
      obtain ⟨rfl, -⟩ := List.cons.inj (Option.some.inj (hc.symm.trans hw'))
      rw [hw] at hsome
      cases hsome
    rename_i st hw
    split at h
    · rename_i hws
      obtain rfl := Option.some.inj h
      subst hws
      exact Or.inr ⟨i, fails, rfl, ⟨w, hc, by simpa using hf, by rw [hw]; rfl⟩, rfl⟩
    · rename_i hws
      obtain rfl := Option.some.inj h
      refine Or.inl ⟨rfl, fun j fails' he hcomp => ?_⟩
      cases he
      obtain ⟨w', hw', -⟩ := hcomp
      exact hws (List.cons.inj (Option.some.inj (hc.symm.trans hw'))).2

def ClosedOrOpen (below : List Page) (s : TapState) : Prop :=
  s.navigator.routes = .overlay :: .orderPage :: .below .navigation :: below.map .below ∨
    s.navigator.routes = .below .navigation :: below.map .below

theorem keepsBelow_of_closedOrOpen (h : ClosedOrOpen below s) : KeepsBelow below s := by
  unfold KeepsBelow
  rcases h with h | h
  · exact h ▸ ⟨[.overlay, .orderPage], rfl⟩
  · exact h ▸ List.suffix_refl _

theorem closedOrOpen_step (hi : ClosedOrOpen below s) (hc : ClosesOnce b s e)
    (h : s.step asserts b o f e = some s') : ClosedOrOpen below s' := by
  unfold ClosedOrOpen at *
  rcases tap_step h with ⟨hr, -⟩ | ⟨i, fails, rfl, hcomp, hn⟩
  · rw [hr]
    exact hi
  · rw [hn, routes_popTwice]
    split_ifs with hm
    · have hhead := hc hcomp hm
      rcases hi with hi | hi
      · exact Or.inr (by rw [hi]; rfl)
      · rw [hi] at hhead
        cases hhead
    · exact hi

theorem closesOnce_of_keepsBelow (hi : ClosedOrOpen below s) (h : s.step asserts b o f e = some s')
    (hk : KeepsBelow below s') : ClosesOnce b s e := by
  rcases tap_step h with ⟨-, hnot⟩ | ⟨i, fails, rfl, hcomp, hn⟩
  · cases e with
    | write i fails => exact fun hcomp => absurd hcomp (hnot i fails rfl)
    | tap => trivial
    | settle r => trivial
  · intro _ hm
    rcases hi with hi | hi
    · rw [hi]
      rfl
    · have hlen := hk.length_le
      rw [hn, routes_popTwice, if_pos hm, hi] at hlen
      simp only [List.length_cons, List.length_map, List.tail_cons, List.length_tail] at hlen
      omega

end

/-- On any pages: no route below the order page is removed exactly in the runs in
which no more than one call completes while its page is mounted. -/
theorem keepsBelow_iff (asserts : Bool) (b : TapButton) (o f : String) (st : Store) (below : List Page)
    (es : List TapEvent) :
    Runs.AllSteps (TapState.step asserts b o f) (fun _ _ s' => KeepsBelow below s') (.onOrder st below) es ↔
      Runs.Meets (TapState.step asserts b o f) (ClosesOnce b) (.onOrder st below) es := by
  have h0 : ClosedOrOpen below (.onOrder st below) := Or.inl rfl
  refine Runs.allSteps_iff_meets (fun s e s' hi hc h => ?_) (fun s e s' hi hc h => ?_) (fun s e s' hi h hk => ?_) h0
  · exact closedOrOpen_step hi hc h
  · exact keepsBelow_of_closedOrOpen (closedOrOpen_step hi hc h)
  · exact closesOnce_of_keepsBelow hi h hk

/-- The OK button of the cancel dialog is tapped twice, and both calls complete
before the order page has left: `Navigation` is closed. -/
theorem navigation_closed : ¬ Runs.AllSteps (TapState.step true .ok "o" "a")
    (fun _ _ s' => KeepsBelow [.verification, .phone, .welcome] s')
    (.onOrder demoStore [.verification, .phone, .welcome])
    ([.tap, .tap, .write 0 false, .write 0 false, .write 1 false] ++ [.write 1 false]) := by
  intro h
  have hroutes : (Runs.run (TapState.step true .ok "o" "a") (.onOrder demoStore [.verification, .phone, .welcome])
      ([.tap, .tap, .write 0 false, .write 0 false, .write 1 false] ++ [.write 1 false])).map
        (fun s => s.navigator.routes) = some [.below .phone, .below .welcome] := by decide
  obtain ⟨s, hs, hr⟩ := Option.map_eq_some_iff.mp hroutes
  obtain ⟨_, hk⟩ := Runs.last_of_allSteps _ hs h
  have hlen := hk.length_le
  rw [hr] at hlen
  revert hlen
  decide

end Sayaaratukcom
