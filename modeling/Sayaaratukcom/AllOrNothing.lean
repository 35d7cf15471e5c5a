import Sayaaratukcom.SendOrder

/-!
# When accepting and cancelling are all-or-nothing

There is no rollback in `acceptOffer` and `cancelOrder`, so a run that fails
after its first write leaves the order changed. The outcome is still whole when
the writes that landed found the document as they leave it, or when the writes
that failed would have found theirs done.
-/

namespace Sayaaratukcom

def Accepted (o f : String) (st : Store) : Prop :=
  (∃ d, st.orders.get o = some d ∧ d.status = .inProgress ∧ d.offerId = f) ∧ st.offerHas f .accepted

def Cancelled (o f : String) (st : Store) : Prop :=
  (∃ d, st.orders.get o = some d ∧ d.status = .cancelled) ∧ st.offerHas f .orderCancelled

def Unchanged (o f : String) (st st' : Store) : Prop :=
  st'.orders.get o = st.orders.get o ∧ st'.offers.get f = st.offers.get f

def AllOrNothing (done : String → String → Store → Prop) (o f : String) (st st' : Store) : Prop :=
  done o f st' ∨ Unchanged o f st st'

/-- When `acceptOffer` is all-or-nothing: its first write fails, or none does;
or the second fails and either the order was in progress, or it had this offer
and the offer was accepted; or the third fails and either the order was in
progress with this offer, or the offer was accepted. -/
def AcceptWhole (asserts : Bool) (fault : ℕ → Bool) (o f : String) (st : Store) : Prop :=
  Stopped asserts fault o f st ∨
  (fault 1 = false ∧ ¬ OfferFails fault 2 f st) ∨
  (fault 1 = true ∧ ∃ d, st.orders.get o = some d ∧
    (d.status = .inProgress ∨ d.offerId = f ∧ st.offerHas f .accepted)) ∨
  (fault 1 = false ∧ OfferFails fault 2 f st ∧ ∃ d, st.orders.get o = some d ∧
    (d.status = .inProgress ∧ d.offerId = f ∨ st.offerHas f .accepted))

/-- When `cancelOrder` is all-or-nothing: its first write fails, or the second
does not, or the order was cancelled, or the offer was marked. -/
def CancelWhole (asserts : Bool) (fault : ℕ → Bool) (o f : String) (st : Store) : Prop :=
  Stopped asserts fault o f st ∨ ¬ OfferFails fault 1 f st ∨
  (∃ d, st.orders.get o = some d ∧ d.status = .cancelled) ∨ st.offerHas f .orderCancelled

section
variable {asserts : Bool} {fault : ℕ → Bool} {o f : String} {st : Store} {d d' : OrderModel}

/-- A call that got no further than the order is whole when the order is as it
should be and the offer already was, or when the order is as it was. -/
theorem whole_putOrder {done : String → String → Store → Prop} {P : OrderModel → Prop} {s : OfferStatus}
    (hdone : ∀ st, done o f st ↔ (∃ d, st.orders.get o = some d ∧ P d) ∧ st.offerHas f s)
    (hd : st.orders.get o = some d) (hid : d'.id = d.id) :
    AllOrNothing done o f st (st.putOrder d') ↔ (P d' ∧ st.offerHas f s) ∨ d' = d := by
  have hget : (st.putOrder d').orders.get o = some d' := by rw [Store.get_putOrder hd hid, if_pos rfl]
  rw [AllOrNothing, Unchanged, hdone, hget, hd]
  simp [Store.offerHas]

theorem accepted_iff (st : Store) : Accepted o f st ↔
    (∃ d, st.orders.get o = some d ∧ (d.status = .inProgress ∧ d.offerId = f)) ∧ st.offerHas f .accepted :=
  Iff.rfl

theorem cancelled_iff (st : Store) : Cancelled o f st ↔
    (∃ d, st.orders.get o = some d ∧ d.status = .cancelled) ∧ st.offerHas f .orderCancelled :=
  Iff.rfl

theorem accepted_putOrder (hd : st.orders.get o = some d) (hid : d'.id = d.id) :
    Accepted o f (st.putOrder d') ↔ (d'.status = .inProgress ∧ d'.offerId = f) ∧ st.offerHas f .accepted := by
  have hget : (st.putOrder d').orders.get o = some d' := by rw [Store.get_putOrder hd hid, if_pos rfl]
  rw [Accepted, hget]
  simp [Store.offerHas]

theorem accept_whole_of_second_fails (hs : ¬ Stopped asserts fault o f st) (hd : st.orders.get o = some d)
    (h1 : fault 1 = true) :
    AllOrNothing Accepted o f st (acceptOffer asserts fault o f st).1 ↔
      d.status = .inProgress ∨ d.offerId = f ∧ st.offerHas f .accepted := by
  rw [accept_second_fails hs hd h1, whole_putOrder accepted_iff hd (by simp), d.withStatus_eq_self]
  simp [or_comm]

theorem withBoth_eq_self : (d.withStatus .inProgress).withOffer f = d ↔
    d.status = .inProgress ∧ d.offerId = f := by
  constructor
  · intro h
    exact ⟨(congrArg OrderModel.status h).symm, (congrArg OrderModel.offerId h).symm⟩
  · intro h
    obtain ⟨hs, hf⟩ := h
    rw [(d.withStatus_eq_self _).mpr hs, (d.withOffer_eq_self _).mpr hf]

theorem accept_whole_of_third_fails (hs : ¬ Stopped asserts fault o f st) (hd : st.orders.get o = some d)
    (h1 : fault 1 = false) (h2 : OfferFails fault 2 f st) :
    AllOrNothing Accepted o f st (acceptOffer asserts fault o f st).1 ↔
      d.status = .inProgress ∧ d.offerId = f ∨ st.offerHas f .accepted := by
  rw [accept_third_fails hs hd h1 h2, whole_putOrder accepted_iff hd (by simp), withBoth_eq_self]
  simp [or_comm]

theorem accept_whole_of_completes (hs : ¬ Stopped asserts fault o f st) (hd : st.orders.get o = some d)
    (h1 : fault 1 = false) (h2 : ¬ OfferFails fault 2 f st) :
    Accepted o f (acceptOffer asserts fault o f st).1 := by
  obtain ⟨e, he, hst⟩ := accept_completes hs hd h1 h2
  rw [hst]
  refine ⟨⟨(d.withStatus .inProgress).withOffer f, ?_, rfl, rfl⟩, e.withStatus .accepted, ?_, rfl⟩
  · rw [Store.putOffer_orders, Store.get_putOrder hd (by simp), if_pos rfl]
  · rw [Store.get_putOffer (show (st.putOrder _).offers.get f = some e from he) (by simp), if_pos rfl]

theorem cancel_whole_of_second_fails (hs : ¬ Stopped asserts fault o f st) (hd : st.orders.get o = some d)
    (h1 : OfferFails fault 1 f st) :
    AllOrNothing Cancelled o f st (cancelOrder asserts fault o f st).1 ↔
      d.status = .cancelled ∨ st.offerHas f .orderCancelled := by
  rw [cancel_second_fails hs hd h1, whole_putOrder cancelled_iff hd (by simp), d.withStatus_eq_self]
  simp [or_comm]

theorem cancel_whole_of_completes (hs : ¬ Stopped asserts fault o f st) (hd : st.orders.get o = some d)
    (h1 : ¬ OfferFails fault 1 f st) : Cancelled o f (cancelOrder asserts fault o f st).1 := by
  obtain ⟨e, he, hst⟩ := cancel_completes hs hd h1
  rw [hst]
  refine ⟨⟨d.withStatus .cancelled, ?_, rfl⟩, e.withStatus .orderCancelled, ?_, rfl⟩
  · rw [Store.putOffer_orders, Store.get_putOrder hd (by simp), if_pos rfl]
  · rw [Store.get_putOffer (show (st.putOrder _).offers.get f = some e from he) (by simp), if_pos rfl]

theorem unchanged_of_stopped (hs : Stopped asserts fault o f st) :
    Unchanged o f st (acceptOffer asserts fault o f st).1 ∧
      Unchanged o f st (cancelOrder asserts fault o f st).1 := by
  constructor
  · rw [acceptOffer, acceptWrites, tryWrites_stopped rfl hs]
    exact ⟨rfl, rfl⟩
  · rw [cancelOrder, cancelWrites, tryWrites_stopped rfl hs]
    exact ⟨rfl, rfl⟩

theorem acceptOffer_whole_iff :
    AllOrNothing Accepted o f st (acceptOffer asserts fault o f st).1 ↔ AcceptWhole asserts fault o f st := by
  unfold AcceptWhole
  by_cases hs : Stopped asserts fault o f st
  · exact iff_of_true (Or.inr (unchanged_of_stopped hs).1) (Or.inl hs)
  obtain ⟨-, -, -, d, hd⟩ := not_stopped hs
  cases h1 : fault 1 with
  | true => simp [accept_whole_of_second_fails hs hd h1, hs, hd]
  | false =>
    by_cases h2 : OfferFails fault 2 f st
    · simp [accept_whole_of_third_fails hs hd h1 h2, hs, hd, h2]
    · exact iff_of_true (Or.inl (accept_whole_of_completes hs hd h1 h2)) (Or.inr (Or.inl ⟨rfl, h2⟩))

theorem cancelOrder_whole_iff :
    AllOrNothing Cancelled o f st (cancelOrder asserts fault o f st).1 ↔ CancelWhole asserts fault o f st := by
  unfold CancelWhole
  by_cases hs : Stopped asserts fault o f st
  · exact iff_of_true (Or.inr (unchanged_of_stopped hs).2) (Or.inl hs)
  obtain ⟨-, -, -, d, hd⟩ := not_stopped hs
  by_cases h1 : OfferFails fault 1 f st
  · simp [cancel_whole_of_second_fails hs hd h1, hs, hd, h1]
  · exact iff_of_true (Or.inl (cancel_whole_of_completes hs hd h1)) (Or.inr (Or.inl h1))

end

theorem accept_cancel_whole_iff (asserts : Bool) (fault : ℕ → Bool) (o f : String) (st : Store) :
    (AllOrNothing Accepted o f st (acceptOffer asserts fault o f st).1 ↔ AcceptWhole asserts fault o f st) ∧
    (AllOrNothing Cancelled o f st (cancelOrder asserts fault o f st).1 ↔
      CancelWhole asserts fault o f st) :=
  ⟨acceptOffer_whole_iff, cancelOrder_whole_iff⟩

/-- The second write fails: the order is in progress, still without its offer. -/
theorem accept_left_half :
    ¬ AllOrNothing Accepted "o" "a" demoStore
      (acceptOffer false (fun i => i == 1) "o" "a" demoStore).1 := by
  have h : (acceptOffer false (fun i => i == 1) "o" "a" demoStore).1.orders.get "o" =
      some (demoOrder.withStatus .inProgress) := by decide
  intro h
  rcases h with ⟨⟨d, hd, -, hf⟩, -⟩ | ⟨hu, -⟩
  · obtain rfl := Option.some.inj (h.symm.trans hd)
    revert hf
    decide
  · rw [h] at hu
    revert hu
    decide

end Sayaaratukcom
