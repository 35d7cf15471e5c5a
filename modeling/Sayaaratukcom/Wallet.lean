import Mathlib.Algebra.BigOperators.Group.List.Basic
import Sayaaratukcom.Functions

/-!
# Wallets

What a user sees of the refunds is a balance and a list of records. A refund
adds its price to the one and a record to the other (`Wallet.credit`); the
handler's transaction refines this (`wallet_refund`) and touches nothing else
that a refund is computed from.
-/

namespace Sayaaratukcom

structure Wallet where
  balance : ℚ
  records : List TransactionModel

def Wallet.credit (w : Wallet) (t : RefundTask) (now : Timestamp) : Wallet :=
  ⟨w.balance + t.offerPrice, w.records ++ [refundRecord t now]⟩

def Wallet.credits (w : Wallet) (ts : List (RefundTask × Timestamp)) : Wallet :=
  ts.foldl (fun w p => w.credit p.1 p.2) w

@[simp] theorem Wallet.credits_nil (w : Wallet) : w.credits [] = w := rfl

theorem Wallet.credits_append (w : Wallet) (ts ts' : List (RefundTask × Timestamp)) :
    w.credits (ts ++ ts') = (w.credits ts).credits ts' :=
  List.foldl_append

theorem Wallet.credits_balance (ts : List (RefundTask × Timestamp)) :
    ∀ w : Wallet, (w.credits ts).balance = w.balance + (ts.map fun p => p.1.offerPrice).sum := by
  induction ts with
  | nil => intro w; simp [credits]
  | cons p ts ih =>
    intro w
    rw [credits, List.foldl_cons, ← credits, ih, List.map_cons, List.sum_cons, ← add_assoc]
    rfl

theorem Wallet.credits_records (ts : List (RefundTask × Timestamp)) :
    ∀ w : Wallet, (w.credits ts).records = w.records ++ ts.map fun p => refundRecord p.1 p.2 := by
  induction ts with
  | nil => intro w; simp [credits]
  | cons p ts ih =>
    intro w
    rw [credits, List.foldl_cons, ← credits, ih, credit, List.append_assoc]
    rfl

def Store.wallet (st : Store) (uid : String) : Option Wallet :=
  (st.users uid).map fun user => ⟨currentBalance user, st.transactions uid⟩

/-- The transaction of a refund on its own; it changes nothing when it throws. -/
def Store.refund (st : Store) (t : RefundTask) (now : Timestamp) : Store :=
  match refundBody t now (st.users t.userId) with
  | none => st
  | some commit => commit st

@[simp] theorem currentBalance_credit (user : UserDoc) (price : ℚ) :
    currentBalance (user.credit price) = currentBalance user + price := by
  simp [currentBalance, UserDoc.credit]

section
variable (st : Store) (t : RefundTask) (now : Timestamp)

theorem Store.refund_of_user {user : UserDoc} (h : st.users t.userId = some user) :
    st.refund t now = st.commitRefund t user now := by
  rw [refund, h]
  rfl

theorem Store.refund_of_none (h : st.users t.userId = none) : st.refund t now = st := by
  rw [refund, h]
  rfl

@[simp] theorem Store.refund_orders : (st.refund t now).orders = st.orders := by
  cases h : st.users t.userId with
  | none => rw [refund_of_none st t now h]
  | some user => rw [refund_of_user st t now h]; rfl

@[simp] theorem Store.refund_offers : (st.refund t now).offers = st.offers := by
  cases h : st.users t.userId with
  | none => rw [refund_of_none st t now h]
  | some user => rw [refund_of_user st t now h]; rfl

theorem Store.wallet_refund (uid : String) :
    (st.refund t now).wallet uid =
      if uid = t.userId then (st.wallet uid).map (·.credit t now) else st.wallet uid := by
  cases h : st.users t.userId with
  | none =>
    rw [refund_of_none st t now h]
    split
    · rename_i hu
      rw [wallet, hu, h]
      rfl
    · rfl
  | some user =>
    rw [refund_of_user st t now h]
    by_cases hu : uid = t.userId
    · subst hu
      simp [wallet, commitRefund, Wallet.credit, h]
    · simp [wallet, commitRefund, hu]

theorem Store.users_refund (uid : String) : (st.refund t now).users uid =
    (st.users uid).map fun user => if t.userId = uid then user.credit t.offerPrice else user := by
  by_cases hu : t.userId = uid
  · subst hu
    cases h : st.users t.userId with
    | none => rw [refund_of_none st t now h, h, Option.map_none]
    | some user => simp [refund_of_user st t now h, commitRefund]
  · simp only [hu, if_false, Option.map_id']
    cases h : st.users t.userId with
    | none => rw [refund_of_none st t now h]
    | some user => simp [refund_of_user st t now h, commitRefund, Ne.symm hu]

end

/-! ## The handler refunds exactly what is due -/

/-- The update enters the cancelled status of an electronically paid order
whose offer and user exist. -/
def RefundDue (u : OrderUpdate) (st : Store) : Prop :=
  u.cancels ∧ u.after.paymentOption = .electronic ∧
    (u.after.offerId ≠ "" ∧ ∃ offer, st.offers.get u.after.offerId = some offer) ∧
    (u.after.user ≠ "" ∧ ∃ user, st.users u.after.user = some user)

theorem readOffer_congr {u : OrderUpdate} {st st' : Store} (h : st.offers = st'.offers) :
    readOffer u st = readOffer u st' := by
  simp only [readOffer, h]

theorem readOffer_eq_ok {u : OrderUpdate} {st : Store} {t : RefundTask} :
    readOffer u st = .ok t ↔
      u.cancels ∧ u.after.paymentOption = .electronic ∧ u.after.offerId ≠ "" ∧ u.after.user ≠ "" ∧
        ∃ offer, st.offers.get u.after.offerId = some offer ∧
          t = { orderId := u.orderId, userId := u.after.user, offerPrice := offer.price } := by
  unfold readOffer
  by_cases h1 : u.cancels <;> simp only [h1, if_true, if_false, false_and, reduceCtorEq, true_and]
  by_cases h2 : u.after.paymentOption = .electronic <;>
    simp only [h2, if_true, if_false, false_and, reduceCtorEq, true_and]
  by_cases h3 : u.after.offerId = "" <;>
    simp only [h3, if_true, if_false, not_true, not_false_iff, ne_eq, false_and, reduceCtorEq, true_and]
  cases st.offers.get u.after.offerId with
  | none => simp
  | some offer => by_cases h4 : u.after.user = "" <;> simp [h4, eq_comm]

theorem refundDue_iff {u : OrderUpdate} {st : Store} :
    RefundDue u st ↔ ∃ t user, readOffer u st = .ok t ∧ st.users u.after.user = some user := by
  constructor
  · intro h
    obtain ⟨hc, hp, ⟨hf, offer, ho⟩, hu, user, huser⟩ := h
    exact ⟨_, user, readOffer_eq_ok.mpr ⟨hc, hp, hf, hu, offer, ho, rfl⟩, huser⟩
  · intro hp
    obtain ⟨t, user, h, huser⟩ := hp
    obtain ⟨hc, hp, hf, hu, offer, ho, -⟩ := readOffer_eq_ok.mp h
    exact ⟨hc, hp, ⟨hf, offer, ho⟩, hu, user, huser⟩

theorem handleOrderCancellation_of_ok {now : Timestamp} {u : OrderUpdate} {st : Store} {t : RefundTask}
    (h : readOffer u st = .ok t) :
    handleOrderCancellation now u st =
      (if (st.users t.userId).isSome then .refunded t else .failed, st.refund t now) := by
  simp only [handleOrderCancellation, h]
  cases hu : st.users t.userId with
  | none => simp [Store.refund_of_none st t now hu, refundBody]
  | some user => simp [Store.refund_of_user st t now hu, refundBody]

theorem handleOrderCancellation_of_error {now : Timestamp} {u : OrderUpdate} {st : Store} {e : Outcome}
    (h : readOffer u st = .error e) : handleOrderCancellation now u st = (e, st) := by
  simp only [handleOrderCancellation, h]

theorem handleOrderCancellation_of_not_due {now : Timestamp} {u : OrderUpdate} {st : Store}
    (h : ¬ RefundDue u st) : (handleOrderCancellation now u st).2 = st := by
  cases ht : readOffer u st with
  | error e => rw [handleOrderCancellation_of_error ht]
  | ok t =>
    have hu : st.users t.userId = none := by
      obtain ⟨-, -, -, -, offer, -, rfl⟩ := readOffer_eq_ok.mp ht
      refine Option.eq_none_iff_forall_ne_some.mpr fun user huser => ?_
      exact h (refundDue_iff.mpr ⟨_, user, ht, huser⟩)
    rw [handleOrderCancellation_of_ok ht]
    exact st.refund_of_none t now hu

@[simp] theorem handleOrderCancellation_orders (now : Timestamp) (u : OrderUpdate) (st : Store) :
    (handleOrderCancellation now u st).2.orders = st.orders := by
  cases h : readOffer u st with
  | error e => rw [handleOrderCancellation_of_error h]
  | ok t => rw [handleOrderCancellation_of_ok h, Store.refund_orders]

@[simp] theorem handleOrderCancellation_offers (now : Timestamp) (u : OrderUpdate) (st : Store) :
    (handleOrderCancellation now u st).2.offers = st.offers := by
  cases h : readOffer u st with
  | error e => rw [handleOrderCancellation_of_error h]
  | ok t => rw [handleOrderCancellation_of_ok h, Store.refund_offers]

/-- The handler credits the wallet of the order's user when a refund is due, and
otherwise leaves every wallet alone. -/
theorem wallet_handleOrderCancellation (now : Timestamp) (u : OrderUpdate) (st : Store) (uid : String) :
    ((handleOrderCancellation now u st).2).wallet uid =
      match readOffer u st with
      | .ok t => if uid = t.userId then (st.wallet uid).map (·.credit t now) else st.wallet uid
      | .error _ => st.wallet uid := by
  cases h : readOffer u st with
  | ok t => rw [handleOrderCancellation_of_ok h]; exact st.wallet_refund t now uid
  | error e => rw [handleOrderCancellation_of_error h]

end Sayaaratukcom
