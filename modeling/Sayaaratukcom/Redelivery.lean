import Mathlib.Data.List.Perm.Basic
import Sayaaratukcom.Wallet

/-!
# Redelivery of an update event

A background trigger may deliver one event several times. Every execution of
`handleOrderCancellation` looks only at the images of the event, so each of
them refunds again: the wallet grows by one refund per delivery.
-/

namespace Sayaaratukcom

structure OtherRefund where
  orderId : String
  offerPrice : ℚ
  now : Timestamp

/-- A complete execution of the handler: on the event, or on another one that
refunds the same user. -/
inductive Execution where
  | event (now : Timestamp)
  | other (r : OtherRefund)

def OtherRefund.task (u : OrderUpdate) (r : OtherRefund) : RefundTask :=
  { orderId := r.orderId, userId := u.after.user, offerPrice := r.offerPrice }

@[simp] theorem OtherRefund.task_userId (u : OrderUpdate) (r : OtherRefund) :
    (r.task u).userId = u.after.user := rfl

def execute (u : OrderUpdate) (st : Store) : Execution → Store
  | .event now => (handleOrderCancellation now u st).2
  | .other r => st.refund (r.task u) r.now

def executeAll (u : OrderUpdate) (st : Store) (es : List Execution) : Store := es.foldl (execute u) st

def others (es : List Execution) : List OtherRefund :=
  es.filterMap fun e => match e with | .event _ => none | .other r => some r

def deliveries (es : List Execution) : ℕ :=
  es.countP fun e => match e with | .event _ => true | .other _ => false

def Wallet.Same (w w' : Wallet) : Prop := w.balance = w'.balance ∧ w.records.Perm w'.records

def Execution.task (u : OrderUpdate) (st : Store) : Execution → Option (RefundTask × Timestamp)
  | .event now => match readOffer u st with | .ok t => some (t, now) | .error _ => none
  | .other r => some (r.task u, r.now)

theorem execute_offers (u : OrderUpdate) (st : Store) (e : Execution) :
    (execute u st e).offers = st.offers := by
  cases e with
  | event now => exact handleOrderCancellation_offers now u st
  | other r => exact Store.refund_offers ..

theorem wallet_execute (u : OrderUpdate) (st : Store) (e : Execution) :
    (execute u st e).wallet u.after.user =
      (st.wallet u.after.user).map fun w => w.credits (e.task u st).toList := by
  cases e with
  | event now =>
    rw [execute, wallet_handleOrderCancellation, Execution.task]
    cases h : readOffer u st with
    | ok t =>
      obtain ⟨-, -, -, -, offer, -, rfl⟩ := readOffer_eq_ok.mp h
      simp [Wallet.credits]
    | error e => simp
  | other r =>
    rw [execute, Store.wallet_refund, OtherRefund.task_userId, if_pos rfl]
    rfl

theorem wallet_executeAll (u : OrderUpdate) (es : List Execution) : ∀ st : Store,
    (executeAll u st es).wallet u.after.user =
      (st.wallet u.after.user).map fun w => w.credits (es.filterMap (Execution.task u st)) := by
  induction es with
  | nil => intro st; simp [executeAll]
  | cons e es ih =>
    intro st
    have htask : Execution.task u (execute u st e) = Execution.task u st := by
      funext e'
      cases e' <;> simp only [Execution.task, readOffer_congr (execute_offers u st e)]
    rw [executeAll, List.foldl_cons, ← executeAll, ih, wallet_execute, Option.map_map, htask]
    congr 1
    funext w
    cases h : e.task u st <;> simp [Wallet.credits, h]

theorem same_of_perm {w : Wallet} {ts ts' : List (RefundTask × Timestamp)} (h : ts.Perm ts') :
    (w.credits ts).Same (w.credits ts') := by
  constructor
  · rw [Wallet.credits_balance, Wallet.credits_balance, (h.map _).sum_eq]
  · rw [Wallet.credits_records, Wallet.credits_records]
    exact (h.map _).append_left _

theorem length_eq_of_same {w : Wallet} {ts ts' : List (RefundTask × Timestamp)}
    (h : (w.credits ts).Same (w.credits ts')) : ts.length = ts'.length := by
  have := h.2.length_eq
  rw [Wallet.credits_records, Wallet.credits_records] at this
  simpa using this

theorem length_eq_deliveries (es : List Execution) : es.length = deliveries es + (others es).length := by
  induction es with
  | nil => rfl
  | cons e es ih => cases e <;> simp_all [deliveries, others] <;> omega

theorem eq_map_others {es : List Execution} (h : deliveries es = 0) : es = (others es).map .other := by
  induction es with
  | nil => rfl
  | cons e es ih =>
    cases e with
    | event now => simp [deliveries] at h
    | other r => simpa [others] using ih (by simpa [deliveries] using h)

section
variable (u : OrderUpdate) (st : Store)

theorem filterMap_of_error {e : Outcome} (h : readOffer u st = .error e) (es : List Execution) :
    es.filterMap (Execution.task u st) = (others es).map fun r => (r.task u, r.now) := by
  induction es with
  | nil => rfl
  | cons x es ih => cases x <;> simp_all [Execution.task, others]

theorem length_filterMap_of_ok {t : RefundTask} (h : readOffer u st = .ok t) (es : List Execution) :
    (es.filterMap (Execution.task u st)).length = es.length := by
  induction es with
  | nil => rfl
  | cons x es ih => cases x <;> simp_all [Execution.task]

end

/-- The executions `pre`, a first delivery at `now`, then `rest` leave the wallet
that one delivery and the other refunds leave exactly when `rest` delivers the
event no further time or the event has no refund due. -/
theorem redelivered_same_iff (u : OrderUpdate) (st : Store) (pre : List OtherRefund) (now : Timestamp)
    (rest : List Execution) :
    Option.Rel Wallet.Same
        ((executeAll u st (pre.map .other ++ .event now :: rest)).wallet u.after.user)
        ((executeAll u st (.event now :: (pre ++ others rest).map .other)).wallet u.after.user) ↔
      deliveries rest = 0 ∨ ¬ RefundDue u st := by
  rw [wallet_executeAll, wallet_executeAll]
  cases hw : st.wallet u.after.user with
  | none =>
    have hu : st.users u.after.user = none := by simpa [Store.wallet] using hw
    exact iff_of_true .none (Or.inr fun hd => by simp [RefundDue, hu] at hd)
  | some w =>
    obtain ⟨user, hu, -⟩ := Option.map_eq_some_iff.mp hw
    rw [Option.map_some, Option.map_some, Option.rel_some_some]
    cases h : readOffer u st with
    | error e =>
      refine iff_of_true ?_ (Or.inr fun hd => by simp [refundDue_iff, h] at hd)
      rw [filterMap_of_error u st h, filterMap_of_error u st h]
      exact same_of_perm (by simp [others])
    | ok t =>
      have hd : RefundDue u st := refundDue_iff.mpr ⟨t, user, h, hu⟩
      simp only [hd, not_true, or_false]
      constructor
      · intro hs
        have hl := length_eq_of_same hs
        rw [length_filterMap_of_ok u st h, length_filterMap_of_ok u st h] at hl
        have := length_eq_deliveries rest
        simp at hl
        omega
      · intro h0
        refine same_of_perm (List.Perm.filterMap _ ?_)
        rw [List.map_append, ← eq_map_others h0]
        exact List.perm_middle

/-- Delivered twice, the cancellation refunds 200 for an offer of 100. -/
theorem refunded_twice : (demoCancellation "a").cancels ∧
    ¬ Option.Rel Wallet.Same
      ((executeAll (demoCancellation "a") demoStore [.event 1, .event 2]).wallet "u")
      ((executeAll (demoCancellation "a") demoStore [.event 1]).wallet "u") := by
  refine ⟨by decide, ?_⟩
  have h2 : ((executeAll (demoCancellation "a") demoStore [.event 1, .event 2]).wallet "u").map (·.balance) =
      some 200 := by decide +kernel
  have h1 : ((executeAll (demoCancellation "a") demoStore [.event 1]).wallet "u").map (·.balance) =
      some 100 := by decide +kernel
  obtain ⟨w, hw, hb⟩ := Option.map_eq_some_iff.mp h2
  obtain ⟨w', hw', hb'⟩ := Option.map_eq_some_iff.mp h1
  rw [hw, hw', Option.rel_some_some]
  intro hs
  have h12 : (200 : ℚ) = 100 := hb.symm.trans (hs.1.trans hb')
  revert h12
  decide +kernel

end Sayaaratukcom
