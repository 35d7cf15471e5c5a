import Mathlib.Algebra.BigOperators.Group.List.Basic
import Sayaaratukcom.Charge
import Sayaaratukcom.Lib.Runs

/-!
# What paying and cancelling costs

Users pay for offers and cancel their orders, one after the other. A charge is
rounded up and its refund is not, so each cancellation costs less than a riyal, and
none brings a gain.
-/

namespace Sayaaratukcom

/-- The store, and the amounts that each user has been charged. -/
structure Till where
  store : Store
  charges : String → List ℤ

/-- An offer that is paid for, as the page shows it, and the time of its refund. -/
structure Cycle where
  offer : OfferModel
  refundedAt : Timestamp

namespace Till

def step (asserts : Bool) (s : Till) (c : Cycle) : Option Till :=
  match s.store.orders.get c.offer.orderId, paymentConfig c.offer with
  | some order, some config => some {
      store := payAcceptCancel asserts c.offer c.refundedAt s.store
      charges := Function.update s.charges order.user (s.charges order.user ++ [config.amount]) }
  | _, _ => none

/-- The order `d` is paid electronically, the page shows the price of the stored offer
`e`, and the amount fits an `int`. -/
structure Pays (s : Till) (c : Cycle) (d : OrderModel) (e : OfferModel) (user : UserDoc) : Prop where
  orderId : c.offer.orderId ≠ ""
  offerId : c.offer.offerId ≠ ""
  order : s.store.orders.get c.offer.orderId = some d
  electronic : d.paymentOption = .electronic
  offer : s.store.offers.get c.offer.offerId = some e
  price : e.price = c.offer.price
  userId : d.user ≠ ""
  user : s.store.users d.user = some user
  min : -2 ^ 63 ≤ ⌈e.price⌉ * 100
  max : ⌈e.price⌉ * 100 < 2 ^ 63

def Payable (s : Till) (c : Cycle) : Prop := ∃ d e user, s.Pays c d e user

/-- What of `charges` has come back, in riyals. -/
structure Returned (charges : List ℤ) (refunded : ℚ) : Prop where
  no_gain : refunded ≤ charges.sum / 100
  loss : charges.sum / 100 < refunded + charges.length ∨ charges = [] ∧ refunded = 0

theorem Returned.nil : Returned [] 0 := ⟨by simp, Or.inr ⟨rfl, rfl⟩⟩

theorem Returned.snoc {charges : List ℤ} {refunded q : ℚ} (h : Returned charges refunded) :
    Returned (charges ++ [⌈q⌉ * 100]) (refunded + q) := by
  have hle := Int.le_ceil q
  have hlt := Int.ceil_lt_add_one q
  have hgain := h.no_gain
  have hsum : ((charges ++ [⌈q⌉ * 100]).sum : ℚ) = charges.sum + ⌈q⌉ * 100 := by simp
  refine ⟨?_, Or.inl ?_⟩
  · rw [hsum]
    linarith
  · rw [hsum, List.length_append, List.length_singleton, Nat.cast_add, Nat.cast_one]
    rcases h.loss with hloss | ⟨rfl, rfl⟩
    · linarith
    · simp only [List.sum_nil, List.length_nil, Int.cast_zero, Nat.cast_zero]
      linarith

/-! ## One cancellation -/

section
variable {asserts : Bool} {s s' : Till} {c : Cycle} {d : OrderModel} {e : OfferModel} {user : UserDoc}

theorem Pays.amount {config : PaymentConfig} (h : s.Pays c d e user) (hc : paymentConfig c.offer = some config) :
    config.amount = ⌈e.price⌉ * 100 := by
  have hmin := h.min
  have hmax := h.max
  obtain ⟨name, -, rfl⟩ := Option.map_eq_some_iff.mp hc
  dsimp only
  rw [← h.price, ceilInt_of_bounds (by omega) (by omega), bmod_of_bounds hmin hmax]

theorem Pays.users (h : s.Pays c d e user) (asserts : Bool) :
    (payAcceptCancel asserts c.offer c.refundedAt s.store).users =
      Function.update s.store.users d.user (some (user.credit e.price)) := by
  obtain ⟨hd₁, he₁, hu₁, -⟩ := accept_updated asserts h.orderId h.offerId h.order h.offer
  obtain ⟨hd₂, he₂, hu₂, -⟩ := cancel_updated asserts h.orderId h.offerId hd₁ he₁
  have husers := hu₂.trans hu₁
  have hcancels : OrderStatus.inProgress ≠ .cancelled := by decide
  simp only [payAcceptCancel, outcome_onPaymentResult, if_true, hd₁, hd₂]
  rw [handleOrderCancellation_of_ok (readOffer_eq_ok.mpr
    ⟨⟨hcancels, rfl⟩, h.electronic, h.offerId, h.userId, _, he₂, rfl⟩)]
  dsimp only
  rw [Store.refund_of_user _ _ _ (by rw [husers]; exact h.user), Store.commitRefund, husers]
  rfl

theorem Pays.step (h : s.Pays c d e user) (hs : s.step asserts c = some s') :
    s'.store.users = Function.update s.store.users d.user (some (user.credit e.price)) ∧
      s'.charges = Function.update s.charges d.user (s.charges d.user ++ [⌈e.price⌉ * 100]) := by
  simp only [Till.step, h.order] at hs
  split at hs
  · rename_i config horder hconfig
    obtain rfl := Option.some.inj horder
    obtain rfl := Option.some.inj hs
    exact ⟨h.users asserts, by rw [h.amount hconfig]⟩
  · cases hs

end

/-! ## A run of cancellations -/

/-- The balance of the user differs from the one in `st` by what has come back of the
charges. -/
def Settled (st : Store) (uid : String) (s : Till) : Prop :=
  ∀ user, st.users uid = some user → ∃ user' refunded, s.store.users uid = some user' ∧
    currentBalance user' = currentBalance user + refunded ∧ Returned (s.charges uid) refunded

theorem settled_init (st : Store) (uid : String) : Settled st uid ⟨st, fun _ => []⟩ :=
  fun user hu => ⟨user, 0, hu, (add_zero _).symm, .nil⟩

theorem settled_step {st : Store} {uid : String} {asserts : Bool} {s s' : Till} {c : Cycle} (h : Settled st uid s)
    (hp : s.Payable c) (hs : s.step asserts c = some s') : Settled st uid s' := by
  obtain ⟨d, e, payer, hpays⟩ := hp
  obtain ⟨husers, hcharges⟩ := hpays.step hs
  intro user hu
  obtain ⟨user', refunded, hu', hbalance, hret⟩ := h user hu
  by_cases hd : uid = d.user
  · subst hd
    obtain rfl := Option.some.inj (hpays.user.symm.trans hu')
    refine ⟨payer.credit e.price, refunded + e.price, ?_, ?_, ?_⟩
    · rw [husers, Function.update_self]
    · rw [currentBalance_credit, hbalance, add_assoc]
    · rw [hcharges, Function.update_self]
      exact hret.snoc
  · refine ⟨user', refunded, ?_, hbalance, ?_⟩
    · rw [husers, Function.update_of_ne hd]
      exact hu'
    · rw [hcharges, Function.update_of_ne hd]
      exact hret

end Till

/-- However often users pay for offers and cancel their orders, no user gets back more
than was charged, and each cancellation costs its user less than a riyal. -/
theorem cancellations_cost {asserts : Bool} {st : Store} {cs : List Cycle} {s : Till} {uid : String}
    {user : UserDoc} (hu : st.users uid = some user)
    (hc : Runs.Meets (Till.step asserts) Till.Payable ⟨st, fun _ => []⟩ cs)
    (h : Runs.run (Till.step asserts) ⟨st, fun _ => []⟩ cs = some s) :
    ∃ user' refunded, s.store.users uid = some user' ∧ currentBalance user' = currentBalance user + refunded ∧
      Till.Returned (s.charges uid) refunded :=
  Runs.inv_run (fun _ _ _ hi hp hs => Till.settled_step hi hp hs) (Till.settled_init st uid) hc h user hu

def demoTill : Till := ⟨demoStore.putOffer (demoOffer "c" (199 / 2)), fun _ => []⟩

theorem demo_pays : demoTill.Pays ⟨demoOffer "c" (199 / 2), 9⟩ demoOrder (demoOffer "c" (199 / 2)) demoUser where
  orderId := show "o" ≠ "" by decide
  offerId := show "c" ≠ "" by decide
  order := Keyed.get_put_self ..
  electronic := rfl
  offer := Keyed.get_put_self ..
  price := rfl
  userId := by decide
  user := show demoStore.users "u" = some demoUser by decide +kernel
  min := by decide +kernel
  max := by decide +kernel

/-- An offer of 99.5 riyals is paid for and cancelled. -/
theorem demo_cancellation_cost : ∃ s user' refunded,
    Runs.run (Till.step true) demoTill [⟨demoOffer "c" (199 / 2), 9⟩] = some s ∧ s.charges "u" = [10000] ∧
      s.store.users "u" = some user' ∧ currentBalance user' = currentBalance demoUser + refunded ∧
      Till.Returned (s.charges "u") refunded := by
  have hrun : (Runs.run (Till.step true) demoTill [⟨demoOffer "c" (199 / 2), 9⟩]).map (·.charges "u") =
      some [10000] := by decide +kernel
  obtain ⟨s, hs, hcharges⟩ := Option.map_eq_some_iff.mp hrun
  have hmeets : Runs.Meets (Till.step true) Till.Payable demoTill [⟨demoOffer "c" (199 / 2), 9⟩] := by
    obtain ⟨s', hstep, -⟩ := (Runs.run_cons_eq_some _).mp hs
    exact (Runs.allSteps_cons _ hstep).mpr ⟨⟨_, _, _, demo_pays⟩, trivial⟩
  obtain ⟨user', refunded, hu', hbalance, hret⟩ := cancellations_cost demo_pays.user hmeets hs
  exact ⟨s, user', refunded, hs, hcharges, hu', hbalance, hret⟩

end Sayaaratukcom
