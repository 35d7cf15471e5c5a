import Sayaaratukcom.Wallet

/-!
# The deployed back end

`functions/index.js` takes `handleOrderCancellation` from the module that does
not export it, so what is deployed has no trigger for order updates and leaves
every wallet alone. The handler itself would pay each refund that is due.
-/

namespace Sayaaratukcom

/-- The stored order becomes `a.2`, and the triggers run on the update event;
there is no event without a document to update. -/
def backendStep (triggers : List Trigger) (st : Store) (a : Timestamp × OrderModel) : Option Store :=
  (st.orders.get a.2.id).map fun before =>
    deliverOrderUpdate triggers a.1 ⟨a.2.id, before, a.2⟩ (st.putOrder a.2)

/-- The refund that is due has been paid: the user's balance has grown by the
offer's price, one record of that amount has been added, and nothing has
changed for other users. -/
def Paid (u : OrderUpdate) (st st' : Store) : Prop :=
  (∃ offer user user' r, st.offers.get u.after.offerId = some offer ∧
    st.users u.after.user = some user ∧ st'.users u.after.user = some user' ∧
    currentBalance user' = currentBalance user + offer.price ∧
    st'.transactions u.after.user = st.transactions u.after.user ++ [r] ∧ r.amount.val = offer.price) ∧
  ∀ uid, uid ≠ u.after.user → st'.users uid = st.users uid ∧ st'.transactions uid = st.transactions uid

def SameUsers (st st' : Store) : Prop := st'.users = st.users ∧ st'.transactions = st.transactions

def StepDue (st : Store) (a : Timestamp × OrderModel) : Prop :=
  ∃ before, st.orders.get a.2.id = some before ∧ RefundDue ⟨a.2.id, before, a.2⟩ st

/-- An update pays the refund that is due, or changes no balance and no record. -/
def PaysDue (st : Store) (a : Timestamp × OrderModel) (st' : Store) : Prop :=
  ∀ before, st.orders.get a.2.id = some before →
    let u : OrderUpdate := ⟨a.2.id, before, a.2⟩
    (RefundDue u st → Paid u st st') ∧ (¬ RefundDue u st → SameUsers st st')

theorem deploy_index : deploy index = [.onOfferUpdate notifyOnOfferAccepted] := rfl

theorem deployed_sameUsers {st st' : Store} {a : Timestamp × OrderModel}
    (h : backendStep (deploy index) st a = some st') : SameUsers st st' := by
  obtain ⟨before, -, rfl⟩ := Option.map_eq_some_iff.mp h
  rw [deploy_index]
  exact ⟨rfl, rfl⟩

theorem not_paid_of_sameUsers {u : OrderUpdate} {st st' : Store} (h : SameUsers st st') : ¬ Paid u st st' := by
  intro h
  obtain ⟨⟨offer, user, user', r, -, -, -, -, hr, -⟩, -⟩ := h
  rw [h.2] at hr
  simp at hr

theorem paid_commitRefund {u : OrderUpdate} {st st' : Store} {t : RefundTask} {user : UserDoc}
    (h : readOffer u st = .ok t) (hu : st.users u.after.user = some user) (hst : SameUsers st st')
    (now : Timestamp) : Paid u st (st'.commitRefund t user now) := by
  obtain ⟨-, -, -, -, offer, ho, rfl⟩ := readOffer_eq_ok.mp h
  obtain ⟨husers, htrans⟩ := hst
  refine ⟨⟨offer, user, user.credit offer.price, refundRecord ⟨u.orderId, u.after.user, offer.price⟩ now,
    ho, hu, ?_, ?_, ?_, ?_⟩, fun uid hne => ?_⟩
  · exact Function.update_self ..
  · exact currentBalance_credit ..
  · rw [← htrans]
    exact Function.update_self ..
  · exact Num.val_ofJs _
  · rw [← husers, ← htrans]
    exact ⟨Function.update_of_ne hne .., Function.update_of_ne hne ..⟩

/-- Reading the name from the module that exports it, every update pays what is
due. -/
theorem handler_paysDue {st st' : Store} {a : Timestamp × OrderModel}
    (h : backendStep (deploy [("handleOrderCancellation",
      (require "./handle_order_cancellation").lookup "handleOrderCancellation")]) st a = some st') :
    PaysDue st a st' := by
  intro before hb u
  have hst : st' = (handleOrderCancellation a.1 u (st.putOrder a.2)).2 := by
    rw [backendStep, hb] at h
    exact (Option.some.inj h).symm
  have hr : readOffer u (st.putOrder a.2) = readOffer u st := by simp only [readOffer, Store.putOrder_offers]
  rw [hst]
  constructor
  · intro hdue
    obtain ⟨t, user, ht, hu⟩ := refundDue_iff.mp hdue
    have hid : t.userId = u.after.user := by
      obtain ⟨-, -, -, -, offer, -, rfl⟩ := readOffer_eq_ok.mp ht
      rfl
    rw [handleOrderCancellation_of_ok (hr.trans ht), Store.refund_of_user _ t a.1 (by rw [hid]; exact hu)]
    exact paid_commitRefund ht hu ⟨rfl, rfl⟩ a.1
  · intro hdue
    have hdue' : ¬ RefundDue u (st.putOrder a.2) := by
      rw [refundDue_iff, hr]
      exact fun h => hdue (refundDue_iff.mpr h)
    rw [handleOrderCancellation_of_not_due hdue']
    exact ⟨rfl, rfl⟩

/-- Over any sequence of order updates the deployed back end pays what is due
exactly when no update of the sequence has a refund due. -/
theorem deployed_paysDue_iff (st : Store) (as : List (Timestamp × OrderModel)) :
    Runs.AllSteps (backendStep (deploy index)) PaysDue st as ↔
      Runs.AllSteps (backendStep (deploy index)) (fun st a _ => ¬ StepDue st a) st as := by
  constructor
  · refine Runs.AllSteps.mono fun st a st' h hp => ?_
    intro h
    obtain ⟨before, hb, hdue⟩ := h
    exact not_paid_of_sameUsers (deployed_sameUsers h) ((hp before hb).1 hdue)
  · refine Runs.AllSteps.mono fun st a st' h hp before hb => ⟨fun hdue => ?_, fun _ => deployed_sameUsers h⟩
    exact absurd ⟨before, hb, hdue⟩ hp

def acceptedStore : Store := demoStore.putOrder ((demoOrder.withStatus .inProgress).withOffer "a")

theorem deployed_unpaid :
    ¬ Runs.AllSteps (backendStep (deploy index)) PaysDue acceptedStore
      [(1, (demoOrder.withStatus .cancelled).withOffer "a")] := by
  intro h
  have hstep : backendStep (deploy index) acceptedStore (1, (demoOrder.withStatus .cancelled).withOffer "a") =
      some (acceptedStore.putOrder ((demoOrder.withStatus .cancelled).withOffer "a")) := rfl
  obtain ⟨hp, -⟩ := (Runs.allSteps_cons _ hstep).mp h
  refine not_paid_of_sameUsers (deployed_sameUsers hstep) ((hp _ (Keyed.get_put_self ..)).1 ?_)
  exact ⟨by decide, rfl, ⟨by decide, demoOffer "a" 100, by decide +kernel⟩, by decide, demoUser, by decide +kernel⟩

end Sayaaratukcom
