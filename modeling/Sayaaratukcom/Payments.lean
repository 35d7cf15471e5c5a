import Mathlib.Algebra.BigOperators.Group.Finset.Basic
import Mathlib.Algebra.Order.BigOperators.Group.Finset
import Sayaaratukcom.Terms

/-!
# Payments and refunds of one order

A refund is demanded by an update that cancels the order while it names an
offer, and the delivery of that update refunds the offer's price. So who is
refunded what is read off the demands among the events and the deliveries.
-/

namespace Sayaaratukcom

open Threads (Thread adv)

def Call.paidOffer (o : String) : Call → Option String
  | .accept true o' f => if o' = o then some f else none
  | .accept false _ _ | .cancel _ _ => none

def World.paidOffers (w : World) (o : String) : List String :=
  (w.pool.map Thread.call).filterMap (Call.paidOffer o)

theorem mem_paidOffers {w : World} {o f : String} :
    f ∈ w.paidOffers o ↔ .accept true o f ∈ w.pool.map Thread.call := by
  rw [World.paidOffers, List.mem_filterMap]
  constructor
  · intro hp
    obtain ⟨c, hc, h⟩ := hp
    cases c with
    | accept paid o' f' =>
      cases paid with
      | true =>
        by_cases ho : o' = o
        · rw [Call.paidOffer, if_pos ho] at h
          obtain rfl := Option.some.inj h
          exact ho ▸ hc
        · simp [Call.paidOffer, ho] at h
      | false => cases h
    | cancel o' f' => cases h
  · exact fun h => ⟨_, h, by simp [Call.paidOffer]⟩

/-- The update cancels order `o` while it names offer `f`. -/
def OrderUpdate.Demands (u : OrderUpdate) (o f : String) : Prop :=
  u.orderId = o ∧ u.cancels ∧ u.after.offerId = f ∧ f ≠ ""

instance (u : OrderUpdate) (o f : String) : Decidable (u.Demands o f) := instDecidableAnd

def World.Demanded (w : World) (o f : String) : Prop := ∃ u ∈ w.events, u.Demands o f

instance (w : World) (o f : String) : Decidable (w.Demanded o f) :=
  inferInstanceAs (Decidable (∃ u ∈ w.events, u.Demands o f))

/-- The order whose status the step, a write of `cancelOrder`, is about to change
to the cancelled one. -/
def World.cancelling (w : World) (o : String) : Act → Option OrderModel
  | .write i =>
    match w.pool[i]?.bind (·.next Call.writes) with
    | some (.orderStatus o' .cancelled) =>
      if o' = o then (w.store.orders.get o).filter fun d => d.status ≠ .cancelled else none
    | _ => none
  | _ => none

/-- No write cancels the order while it names an offer for which an earlier
update has cancelled it already. -/
def NotRefundedYet (o : String) (w : World) (a : Act) : Prop :=
  ∀ d ∈ w.cancelling o a, ¬ w.Demanded o d.offerId

instance (o : String) (w : World) (a : Act) : Decidable (NotRefundedYet o w a) :=
  inferInstanceAs (Decidable (∀ d ∈ w.cancelling o a, ¬ w.Demanded o d.offerId))

theorem cancelling_of_next {w : World} {i : ℕ} {o f : String} {d : OrderModel}
    (hi : w.pool[i]? = some ⟨.cancel o f, 0⟩) (hd : w.store.orders.get o = some d)
    (hs : d.status ≠ .cancelled) : d ∈ w.cancelling o (.write i) := by
  simp [World.cancelling, hi, Thread.next, Call.writes, cancelWrites, hd, hs]

theorem get_of_cancelling {w : World} {o : String} {a : Act} {d : OrderModel} (h : d ∈ w.cancelling o a) :
    w.store.orders.get o = some d := by
  unfold World.cancelling at h
  split at h
  · split at h
    · split at h
      · exact (Option.mem_filter_iff.mp h).1
      · cases h
    · cases h
  · cases h

/-! ## How the demands grow -/

theorem getElem?_snoc_eq_some {α : Type*} {l : List α} {a b : α} {i : ℕ} :
    (l ++ [a])[i]? = some b ↔ l[i]? = some b ∨ i = l.length ∧ a = b := by
  rcases Nat.lt_trichotomy i l.length with h | h | h
  · rw [List.getElem?_append_left h]
    simp [h.ne]
  · subst h
    simp
  · simp [h.ne', List.getElem?_eq_none (Nat.le_of_lt h), List.getElem?_append_right (Nat.le_of_lt h),
      Nat.sub_ne_zero_of_lt h]

section
variable {w w' : World} {a : Act} {o f : String}

theorem events_step (h : w.step a = some w') {i : ℕ} {u : OrderUpdate} (hu : w.events[i]? = some u) :
    w'.events[i]? = some u := by
  cases moves_of_step h with
  | order => exact getElem?_snoc_eq_some.mpr (Or.inl hu)
  | accept => exact hu
  | cancel => exact hu
  | offer => exact hu
  | deliver => exact hu

theorem demanded_step (h : w.step a = some w') (hd : w.Demanded o f) : w'.Demanded o f := by
  obtain ⟨u, hu, hdem⟩ := hd
  obtain ⟨i, hi⟩ := List.mem_iff_getElem?.mp hu
  exact ⟨u, List.mem_of_getElem? (events_step h hi), hdem⟩

theorem demands_step (h : w.step a = some w') {i : ℕ} {u : OrderUpdate} (hu : w'.events[i]? = some u)
    (hdem : u.Demands o f) :
    w.events[i]? = some u ∨ i = w.events.length ∧ ∃ d ∈ w.cancelling o a, d.offerId = f := by
  cases moves_of_step h with
  | accept => exact Or.inl hu
  | cancel => exact Or.inl hu
  | offer => exact Or.inl hu
  | deliver => exact Or.inl hu
  | order hi hd hw =>
    rcases getElem?_snoc_eq_some.mp hu with hu | ⟨hk, rfl⟩
    · exact Or.inl hu
    obtain ⟨rfl, ⟨hb, ha⟩, hf, -⟩ := hdem
    cases hw with
    | acceptStatus => cases ha
    | acceptOffer => exact absurd ha hb
    | cancelStatus => exact Or.inr ⟨hk, _, cancelling_of_next hi hd hb, hf⟩

theorem paidOffers_step (h : w.step a = some w') (hf : f ∈ w.paidOffers o) : f ∈ w'.paidOffers o := by
  rw [mem_paidOffers] at hf ⊢
  exact calls_step h hf

theorem paid_of_electronic {st₀ : Store} (h : Anchored st₀ w) {d₀ : OrderModel}
    (hd : st₀.orders.get o = some d₀) (he : d₀.paymentOption = .electronic) {t : Thread Call} (ht : t ∈ w.pool)
    {paid : Bool} (hc : t.call = .accept paid o f) : f ∈ w.paidOffers o := by
  have hmem : Call.accept paid o f ∈ w.pool.map Thread.call := hc ▸ List.mem_map_of_mem ht
  obtain ⟨⟨d, hd', rfl⟩, -⟩ := h.calls _ hmem
  obtain rfl := Option.some.inj (hd.symm.trans hd')
  rw [decide_eq_true he] at hmem
  exact mem_paidOffers.mpr hmem

def DemandedOnce (o : String) (w : World) : Prop :=
  ∀ (i j : ℕ) (u v : OrderUpdate) (f : String), w.events[i]? = some u → w.events[j]? = some v →
    u.Demands o f → v.Demands o f → i = j

theorem demandedOnce_init (o : String) (st : Store) : DemandedOnce o (.init st) := by
  intro i j u v f hu
  cases hu

theorem demandedOnce_step (hi : DemandedOnce o w) (hc : NotRefundedYet o w a) (h : w.step a = some w') :
    DemandedOnce o w' := by
  intro i j u v f hu hv hdu hdv
  rcases demands_step h hu hdu with hu' | ⟨hi', d, hd, rfl⟩
  · rcases demands_step h hv hdv with hv' | ⟨-, d, hd, rfl⟩
    · exact hi i j u v f hu' hv' hdu hdv
    · exact absurd ⟨u, List.mem_of_getElem? hu', hdu⟩ (hc d hd)
  · rcases demands_step h hv hdv with hv' | ⟨hj', -⟩
    · exact absurd ⟨v, List.mem_of_getElem? hv', hdv⟩ (hc d hd)
    · rw [hi', hj']

end

/-! ## What a delivery refunds -/

theorem readOffer_ne_refunded (u : OrderUpdate) (st : Store) (t : RefundTask) :
    readOffer u st ≠ .error (.refunded t) := by
  unfold readOffer
  repeat' split
  all_goals simp

theorem outcome_eq_refunded {now : Timestamp} {u : OrderUpdate} {st : Store} {t : RefundTask} :
    (handleOrderCancellation now u st).1 = .refunded t ↔
      readOffer u st = .ok t ∧ (st.users t.userId).isSome := by
  cases hr : readOffer u st with
  | error e =>
    rw [handleOrderCancellation_of_error hr]
    simp only [reduceCtorEq, false_and, iff_false]
    intro h
    subst h
    exact readOffer_ne_refunded u st t hr
  | ok t' =>
    rw [handleOrderCancellation_of_ok hr]
    cases hu : (st.users t'.userId).isSome <;> aesop

def World.price (w : World) (f : String) : ℚ := ((w.store.offers.get f).map OfferModel.price).getD 0

theorem price_eq {st₀ : Store} {w : World} (ha : Anchored st₀ w) {f : String} {e₀ : OfferModel}
    (he : st₀.offers.get f = some e₀) : w.price f = e₀.price := by
  obtain ⟨e, he', ht⟩ := ha.store.offer_of_init he
  rw [World.price, he', ← OfferModel.price_of_terms ht]
  rfl

/-- A delivered refund answers a demand, with the price of the demanded offer
and to the owner of the order. -/
theorem refund_of_delivery {st₀ : Store} {w : World} (h : Anchored st₀ w) {p : Delivery} {t : RefundTask}
    (hp : p ∈ w.delivered) (ht : p.outcome = .refunded t) :
    ∃ u d₀ e₀, w.events[p.event]? = some u ∧ u.Demands t.orderId u.after.offerId ∧
      st₀.orders.get t.orderId = some d₀ ∧ d₀.user = t.userId ∧
      st₀.offers.get u.after.offerId = some e₀ ∧ e₀.price = t.offerPrice := by
  obtain ⟨u, st, hu, hst, hout⟩ := h.delivered p hp
  obtain ⟨hr, -⟩ := outcome_eq_refunded.mp (hout.symm.trans ht)
  obtain ⟨hc, -, hf, -, e, he, rfl⟩ := readOffer_eq_ok.mp hr
  obtain ⟨d₀, hd, hdt⟩ := h.events u (List.mem_of_getElem? hu)
  obtain ⟨e₀, he₀, het⟩ := hst.offer he
  exact ⟨u, d₀, e₀, hu, ⟨rfl, hc, rfl, hf⟩, hd, OrderModel.user_of_terms hdt, he₀,
    OfferModel.price_of_terms het⟩

/-! ## What the owner's records show -/

def Store.refundedFor (st : Store) (uid o : String) : ℚ :=
  (((st.transactions uid).filter fun r => r.transaction = refundText o).map fun r => r.amount.val).sum

def Delivery.amount (uid o : String) (p : Delivery) : ℚ :=
  match p.outcome with
  | .refunded t => if t.userId = uid ∧ t.orderId = o then t.offerPrice else 0
  | _ => 0

theorem refundText_inj {o o' : String} : refundText o = refundText o' ↔ o = o' := String.append_right_inj _

theorem refundedFor_refund (st : Store) (t : RefundTask) (now : Timestamp) {user : UserDoc}
    (hu : st.users t.userId = some user) (uid o : String) :
    (st.refund t now).refundedFor uid o =
      st.refundedFor uid o + if t.userId = uid ∧ t.orderId = o then t.offerPrice else 0 := by
  rw [Store.refund_of_user st t now hu, Store.refundedFor, Store.refundedFor]
  by_cases hid : t.userId = uid
  · subst hid
    by_cases ho : t.orderId = o <;> simp [Store.commitRefund, refundRecord, refundText_inj, ho]
  · simp [Store.commitRefund, Function.update_of_ne (Ne.symm hid), hid]

theorem refundedFor_handled (now : Timestamp) (u : OrderUpdate) (st : Store) (i : ℕ) (uid o : String) :
    (handleOrderCancellation now u st).2.refundedFor uid o =
      st.refundedFor uid o + Delivery.amount uid o ⟨i, now, (handleOrderCancellation now u st).1⟩ := by
  cases hr : readOffer u st with
  | error e =>
    rw [handleOrderCancellation_of_error hr]
    cases e with
    | refunded t => exact absurd hr (readOffer_ne_refunded u st t)
    | _ => simp [Delivery.amount]
  | ok t =>
    rw [handleOrderCancellation_of_ok hr]
    cases hu : st.users t.userId with
    | none => simp [Store.refund_of_none st t now hu, Delivery.amount]
    | some user => simp [refundedFor_refund st t now hu, Delivery.amount]

theorem refundedFor_run {st₀ : Store} {w : World} {as : List Act}
    (h : Runs.run World.step (.init st₀) as = some w) (uid o : String) :
    w.store.refundedFor uid o = st₀.refundedFor uid o + (w.delivered.map (Delivery.amount uid o)).sum := by
  refine Runs.inv_run_free (I := fun w => w.store.refundedFor uid o =
    st₀.refundedFor uid o + (w.delivered.map (Delivery.amount uid o)).sum) (fun w a w' hi hs => ?_)
    (by simp [World.init]) h
  cases moves_of_step hs with
  | accept => exact hi
  | cancel => exact hi
  | order => exact hi
  | offer => exact hi
  | @deliver i now u hn hu =>
    simp only [World.handled, List.map_append, List.sum_append, List.map_singleton, List.sum_singleton]
    rw [refundedFor_handled now u w.store i, hi, add_assoc]

def Delivery.credit (uid : String) (p : Delivery) : Option (RefundTask × Timestamp) :=
  match p.outcome with
  | .refunded t => if uid = t.userId then some (t, p.now) else none
  | _ => none

theorem wallet_handled (now : Timestamp) (u : OrderUpdate) (st : Store) (i : ℕ) (uid : String) :
    (handleOrderCancellation now u st).2.wallet uid = (st.wallet uid).map
      (·.credits ([Delivery.mk i now (handleOrderCancellation now u st).1].filterMap (Delivery.credit uid))) := by
  rw [wallet_handleOrderCancellation]
  cases hr : readOffer u st with
  | error e =>
    rw [handleOrderCancellation_of_error hr]
    cases e with
    | refunded t => exact absurd hr (readOffer_ne_refunded u st t)
    | _ => simp [Delivery.credit, List.filterMap_cons]
  | ok t =>
    rw [handleOrderCancellation_of_ok hr]
    by_cases hid : uid = t.userId
    · subst hid
      cases hu : st.users t.userId <;> simp [Store.wallet, hu, Delivery.credit, Wallet.credits]
    · cases hu : (st.users t.userId).isSome <;> simp [Delivery.credit, List.filterMap_cons, hid]

theorem wallet_run {st₀ : Store} {w : World} {as : List Act}
    (h : Runs.run World.step (.init st₀) as = some w) (uid : String) :
    w.store.wallet uid = (st₀.wallet uid).map (·.credits (w.delivered.filterMap (Delivery.credit uid))) := by
  refine Runs.inv_run_free (I := fun w => w.store.wallet uid =
    (st₀.wallet uid).map (·.credits (w.delivered.filterMap (Delivery.credit uid)))) (fun w a w' hi hs => ?_)
    (by simp [World.init]) h
  cases moves_of_step hs with
  | accept => exact hi
  | cancel => exact hi
  | order => exact hi
  | offer => exact hi
  | @deliver i now u hn hu =>
    simp only [World.handled, List.filterMap_append, Wallet.credits_append]
    rw [wallet_handled now u w.store i, hi, Option.map_map]
    rfl

end Sayaaratukcom
