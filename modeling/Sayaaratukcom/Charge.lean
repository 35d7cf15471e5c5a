import Mathlib.Algebra.Order.Archimedean.Basic
import Mathlib.Algebra.Order.Floor.Ring
import Mathlib.Data.Rat.Floor
import Mathlib.Tactic.Linarith
import Sayaaratukcom.Deployment
import Sayaaratukcom.Payment

/-!
# The charge and the refund of an offer

`PaymentPage` charges the offer's price rounded up to a whole riyal, in
hundredths; the refund of a cancelled order is computed from the price as it is
stored.
-/

namespace Sayaaratukcom

structure PaymentConfig where
  amount : ℤ
  description : String
  metadata : List (String × String)
  deriving DecidableEq

/-- `price.ceil()`, an `int` of 64 bits: what is out of range is clamped. -/
def ceilInt (price : ℚ) : ℤ := max (-2 ^ 63) (min ⌈price⌉ (2 ^ 63 - 1))

/-- The configuration that `initState` makes; it throws when the provider's name
is missing. -/
def paymentConfig (offer : OfferModel) : Option PaymentConfig :=
  offer.serviceProvider[1]?.map fun name => {
    amount := (ceilInt offer.price * 100).bmod (2 ^ 64)
    description := "عملية دفع للطلب " ++ offer.orderId
    metadata := [("مزود الخدمة", name)] }

/-- The offer is paid for and accepted, the order is cancelled, and the update of
its status is processed; no write fails. -/
def payAcceptCancel (asserts : Bool) (offer : OfferModel) (now : Timestamp) (st : Store) : Store :=
  let accepted := (onPaymentResult asserts offer (.response .paid) (.init st)).outcome fun _ => false
  let cancelled := (cancelOrder asserts (fun _ => false) offer.orderId offer.offerId accepted).1
  match accepted.orders.get offer.orderId, cancelled.orders.get offer.orderId with
  | some before, some after => (handleOrderCancellation now ⟨offer.orderId, before, after⟩ cancelled).2
  | _, _ => cancelled

/-- The user's balance has grown by `amount` hundredths of a riyal, and one record
has been added that shows the same amount. -/
def RefundAgrees (amount : ℤ) (uid : String) (st st' : Store) : Prop :=
  ∃ user user' r, st.users uid = some user ∧ st'.users uid = some user' ∧
    currentBalance user' = currentBalance user + (amount : ℚ) / 100 ∧
    st'.transactions uid = st.transactions uid ++ [r] ∧ r.amount.val = (amount : ℚ) / 100

/-- The price is a whole number of riyals, and the amount fits an `int`. -/
def WholePrice (price : ℚ) : Prop :=
  ∃ n : ℤ, price = n ∧ -2 ^ 63 ≤ n * 100 ∧ n * 100 < 2 ^ 63

/-- The offer and its electronically paid order are stored, with a registered
user. -/
structure Payable (offer : OfferModel) (d : OrderModel) (user : UserDoc) (st : Store) : Prop where
  orderId : offer.orderId ≠ ""
  offerId : offer.offerId ≠ ""
  order : st.orders.get offer.orderId = some d
  offer : st.offers.get offer.offerId = some offer
  electronic : d.paymentOption = .electronic
  userId : d.user ≠ ""
  user : st.users d.user = some user

/-! ## The amounts -/

theorem bmod_of_bounds {n : ℤ} (h : -2 ^ 63 ≤ n) (h' : n < 2 ^ 63) : n.bmod (2 ^ 64) = n := by
  rw [Int.bmod_eq_of_le] <;> omega

theorem ceilInt_of_bounds {q : ℚ} (h : -2 ^ 63 ≤ ⌈q⌉) (h' : ⌈q⌉ < 2 ^ 63) : ceilInt q = ⌈q⌉ := by
  unfold ceilInt
  omega

theorem amount_of_whole {q : ℚ} {n : ℤ} (hq : q = n) (h : -2 ^ 63 ≤ n * 100) (h' : n * 100 < 2 ^ 63) :
    (ceilInt q * 100).bmod (2 ^ 64) = n * 100 := by
  have hc : ⌈q⌉ = n := by rw [hq, Int.ceil_intCast]
  rw [ceilInt_of_bounds (by omega) (by omega), hc, bmod_of_bounds h h']

theorem amount_bounds (n : ℤ) : -2 ^ 63 ≤ n.bmod (2 ^ 64) ∧ n.bmod (2 ^ 64) < 2 ^ 63 := by
  have h1 := Int.le_bmod (x := n) (m := 2 ^ 64) (by decide)
  have h2 := Int.bmod_lt (x := n) (m := 2 ^ 64) (by decide)
  omega

theorem ceil_of_hundredths {q : ℚ} {n : ℤ} (h : (n : ℚ) / 100 = q) : n ≤ ⌈q⌉ * 100 ∧ ⌈q⌉ * 100 < n + 100 := by
  have hle : (n : ℚ) ≤ ⌈q⌉ * 100 := by
    have := Int.le_ceil q
    linarith
  have hlt : (⌈q⌉ * 100 : ℚ) < n + 100 := by
    have := Int.ceil_lt_add_one q
    linarith
  exact_mod_cast And.intro hle hlt

/-- The charge is the price exactly when the price is whole: a fraction is
rounded up, and an amount that does not fit changes its sign. -/
theorem amount_eq_price_iff (q : ℚ) : ((ceilInt q * 100).bmod (2 ^ 64) : ℤ) / (100 : ℚ) = q ↔ WholePrice q := by
  constructor
  · intro h
    have hbounds := amount_bounds (ceilInt q * 100)
    generalize hn : (ceilInt q * 100).bmod (2 ^ 64) = n at h hbounds
    obtain ⟨hle, hlt⟩ := ceil_of_hundredths h
    rw [ceilInt_of_bounds (by omega) (by omega)] at hn
    have hnc : n = ⌈q⌉ * 100 := by
      by_cases hs : ⌈q⌉ * 100 < 2 ^ 63
      · rw [← hn, bmod_of_bounds (by omega) hs]
      · rw [Int.bmod_def] at hn
        omega
    refine ⟨⌈q⌉, ?_, by omega, by omega⟩
    have hcast : (n : ℚ) = ⌈q⌉ * 100 := by exact_mod_cast hnc
    linarith
  · intro h
    obtain ⟨n, hq, h1, h2⟩ := h
    rw [amount_of_whole hq h1 h2, hq]
    push_cast
    linarith

/-! ## The refund -/

section
variable {offer : OfferModel} {d : OrderModel} {user : UserDoc} {st : Store}

def Updated (d : OrderModel) (e : OfferModel) (o f : String) (st st' : Store) : Prop :=
  st'.orders.get o = some d ∧ st'.offers.get f = some e ∧ SameUsers st st'

theorem updated_both {o f : String} {d' : OrderModel} {e e' : OfferModel} (hd : st.orders.get o = some d)
    (he : st.offers.get f = some e) (hid : d'.id = d.id) (hid' : e'.offerId = e.offerId) :
    Updated d' e' o f st ((st.putOrder d').putOffer e') := by
  refine ⟨?_, ?_, rfl, rfl⟩
  · rw [Store.putOffer_orders, Store.get_putOrder hd hid, if_pos rfl]
  · rw [Store.get_putOffer (show (st.putOrder d').offers.get f = some e from he) hid', if_pos rfl]

variable {o f : String} {e : OfferModel}

theorem not_stopped_of_found (asserts : Bool) (ho : o ≠ "") (hf : f ≠ "") (hd : st.orders.get o = some d) :
    ¬ Stopped asserts (fun _ => false) o f st := by
  simp [Stopped, refThrows, ho, hf, hd]

theorem offer_found (i : ℕ) (hf : f ≠ "") (he : st.offers.get f = some e) :
    ¬ OfferFails (fun _ => false) i f st := by
  simp [OfferFails, hf, he]

theorem accept_updated (asserts : Bool) (ho : o ≠ "") (hf : f ≠ "") (hd : st.orders.get o = some d)
    (he : st.offers.get f = some e) :
    Updated ((d.withStatus .inProgress).withOffer f) (e.withStatus .accepted) o f st
      (acceptOffer asserts (fun _ => false) o f st).1 := by
  obtain ⟨e₁, he₁, hst⟩ := accept_completes (not_stopped_of_found asserts ho hf hd) hd rfl (offer_found 2 hf he)
  obtain rfl := Option.some.inj (he.symm.trans he₁)
  rw [hst]
  exact updated_both hd he (by simp) (by simp)

theorem cancel_updated (asserts : Bool) (ho : o ≠ "") (hf : f ≠ "") (hd : st.orders.get o = some d)
    (he : st.offers.get f = some e) :
    Updated (d.withStatus .cancelled) (e.withStatus .orderCancelled) o f st
      (cancelOrder asserts (fun _ => false) o f st).1 := by
  obtain ⟨e₁, he₁, hst⟩ := cancel_completes (not_stopped_of_found asserts ho hf hd) hd (offer_found 1 hf he)
  obtain rfl := Option.some.inj (he.symm.trans he₁)
  rw [hst]
  exact updated_both hd he (by simp) (by simp)

theorem payAcceptCancel_eq (asserts : Bool) (now : Timestamp) (h : Payable offer d user st) :
    ∃ st' : Store, st'.transactions = st.transactions ∧
      payAcceptCancel asserts offer now st = st'.commitRefund ⟨offer.orderId, d.user, offer.price⟩ user now := by
  obtain ⟨hd₁, he₁, hu₁, ht₁⟩ := accept_updated asserts h.orderId h.offerId h.order h.offer
  obtain ⟨hd₂, he₂, hu₂, ht₂⟩ := cancel_updated asserts h.orderId h.offerId hd₁ he₁
  refine ⟨_, ht₂.trans ht₁, ?_⟩
  simp only [payAcceptCancel, outcome_onPaymentResult, if_true, hd₁, hd₂]
  have hcancels : OrderStatus.inProgress ≠ .cancelled := by decide
  rw [handleOrderCancellation_of_ok (readOffer_eq_ok.mpr
    ⟨⟨hcancels, rfl⟩, h.electronic, h.offerId, h.userId, _, he₂, rfl⟩)]
  exact Store.refund_of_user _ _ now (by rw [hu₂, hu₁]; exact h.user)

theorem charge_refund_agree_iff {config : PaymentConfig} {asserts : Bool} {now : Timestamp}
    (h : Payable offer d user st) (hc : paymentConfig offer = some config) :
    RefundAgrees config.amount d.user st (payAcceptCancel asserts offer now st) ↔ WholePrice offer.price := by
  have hamount : config.amount = (ceilInt offer.price * 100).bmod (2 ^ 64) := by
    obtain ⟨name, -, rfl⟩ := Option.map_eq_some_iff.mp hc
    rfl
  rw [← amount_eq_price_iff, ← hamount]
  obtain ⟨st', htr, hst⟩ := payAcceptCancel_eq asserts now h
  have hu : (payAcceptCancel asserts offer now st).users d.user = some (user.credit offer.price) := by
    rw [hst]
    exact Function.update_self ..
  have ht : (payAcceptCancel asserts offer now st).transactions d.user = st.transactions d.user ++
      [refundRecord ⟨offer.orderId, d.user, offer.price⟩ now] := by
    rw [hst, ← htr]
    exact Function.update_self ..
  constructor
  · intro hr
    obtain ⟨user₀, user', r, hu₀, hu', hbal, -, -⟩ := hr
    obtain rfl := Option.some.inj (h.user.symm.trans hu₀)
    obtain rfl := Option.some.inj (hu.symm.trans hu')
    rw [currentBalance_credit] at hbal
    exact (add_left_cancel hbal).symm
  · intro hp
    refine ⟨user, _, _, h.user, hu, ?_, ht, ?_⟩
    · rw [currentBalance_credit, hp]
    · exact (Num.val_ofJs _).trans hp.symm

end

theorem demo_payable (f : String) (price : ℚ) (hf : f ≠ "") :
    Payable (demoOffer f price) demoOrder demoUser (demoStore.putOffer (demoOffer f price)) where
  orderId := show "o" ≠ "" by decide
  offerId := hf
  order := Keyed.get_put_self ..
  offer := Keyed.get_put_self ..
  electronic := rfl
  userId := by decide
  user := show demoStore.users "u" = some demoUser by decide +kernel

theorem demo_charge_refund_agree : ∃ config, paymentConfig (demoOffer "c" 100) = some config ∧
    (RefundAgrees config.amount "u" (demoStore.putOffer (demoOffer "c" 100))
      (payAcceptCancel true (demoOffer "c" 100) 9 (demoStore.putOffer (demoOffer "c" 100))) ↔ WholePrice 100) :=
  ⟨_, rfl, charge_refund_agree_iff (demo_payable "c" 100 (by decide)) rfl⟩

/-- An offer of 99.5 riyals: 100 are charged, and 99.5 are refunded. -/
theorem half_riyal_disagrees : ∃ config, paymentConfig (demoOffer "c" (199 / 2)) = some config ∧
    config.amount = 10000 ∧
    ¬ RefundAgrees config.amount "u" (demoStore.putOffer (demoOffer "c" (199 / 2)))
      (payAcceptCancel true (demoOffer "c" (199 / 2)) 9 (demoStore.putOffer (demoOffer "c" (199 / 2)))) := by
  have hc : (paymentConfig (demoOffer "c" (199 / 2))).map (·.amount) = some 10000 := by decide +kernel
  have hb : ((payAcceptCancel true (demoOffer "c" (199 / 2)) 9
      (demoStore.putOffer (demoOffer "c" (199 / 2)))).users "u").map currentBalance = some (199 / 2) := by
    decide +kernel
  obtain ⟨config, hconfig, hamount⟩ := Option.map_eq_some_iff.mp hc
  refine ⟨config, hconfig, hamount, fun h => ?_⟩
  obtain ⟨user, user', r, hu, hu', hbal, -, -⟩ := h
  obtain rfl := Option.some.inj (show some demoUser = some user from hu)
  rw [hu', Option.map_some, Option.some.injEq, hbal, hamount] at hb
  revert hb
  decide +kernel

end Sayaaratukcom
