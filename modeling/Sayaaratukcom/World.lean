import Sayaaratukcom.Lib.Threads
import Sayaaratukcom.SendOrder
import Sayaaratukcom.Wallet

/-!
# Pages, calls and deliveries together

Any number of pages act on snapshots of the store, and each tap or `paid`
result starts a call of `acceptOffer` or `cancelOrder`. The calls make their
writes one at a time, in any interleaving with each other and with the
deliveries of `handleOrderCancellation`. No write fails: one that the store
would refuse has no step.
-/

namespace Sayaaratukcom

open Threads (Thread adv)

/-- A call under way; `paid` tells the calls that `onPaymentResult` makes. -/
inductive Call where
  | accept (paid : Bool) (orderId offerId : String)
  | cancel (orderId offerId : String)
  deriving DecidableEq

def Call.writes : Call → List Write
  | .accept _ orderId offerId => acceptWrites orderId offerId
  | .cancel orderId offerId => cancelWrites orderId offerId

/-! ## What a page can start -/

def streamAllOffers (orderId : String) (offer : OfferModel) : Prop :=
  offer.orderId = orderId ∧ offer.status = .pending

instance (orderId : String) (offer : OfferModel) : Decidable (streamAllOffers orderId offer) :=
  instDecidableAnd

/-- The accept button of `showOffer`: the offers are shown unless the order is
cancelled, and can be opened unless it is in progress. An electronic payment
goes on to a `PaymentPage`, which calls `acceptOffer` when it is paid. -/
def showOffer (order : OrderModel) (offer : OfferModel) : Option Call :=
  if order.status ≠ .cancelled ∧ order.status ≠ .inProgress ∧ streamAllOffers order.id offer then
    if order.paymentOption = .electronic then some (.accept true offer.orderId offer.offerId)
    else some (.accept false order.id offer.offerId)
  else none

def cancelItem (order : OrderModel) : Option Call :=
  if order.status = .inProgress then some (.cancel order.id order.offerId) else none

theorem showOffer_eq_some {order : OrderModel} {offer : OfferModel} {c : Call}
    (h : showOffer order offer = some c) :
    c = .accept (decide (order.paymentOption = .electronic)) order.id offer.offerId ∧
      offer.orderId = order.id := by
  unfold showOffer at h
  split at h
  · rename_i hs
    obtain ⟨-, -, ho, -⟩ := hs
    split at h
    · rename_i hp
      exact ⟨by rw [← Option.some.inj h, ho, decide_eq_true hp], ho⟩
    · rename_i hp
      exact ⟨by rw [← Option.some.inj h, decide_eq_false hp], ho⟩
  · cases h

theorem cancelItem_eq_some {order : OrderModel} {c : Call} (h : cancelItem order = some c) :
    c = .cancel order.id order.offerId := by
  unfold cancelItem at h
  split at h
  · exact (Option.some.inj h).symm
  · cases h

/-! ## Worlds and steps -/

structure Delivery where
  event : ℕ
  now : Timestamp
  outcome : Outcome
  deriving DecidableEq

structure World where
  store : Store
  /-- Every store so far, the current one included: what pages may show. -/
  past : List Store
  pool : List (Thread Call)
  events : List OrderUpdate
  delivered : List Delivery

def World.init (st : Store) : World := ⟨st, [st], [], [], []⟩

inductive Act where
  /-- An offer sheet with the order as in store `k` and the offer as in store `j`. -/
  | accept (k j : ℕ) (orderId offerId : String)
  /-- An order page with the order as in store `k`. -/
  | cancel (k : ℕ) (orderId : String)
  | write (i : ℕ)
  | deliver (i : ℕ) (now : Timestamp)
  deriving DecidableEq

def World.start (w : World) (c : Call) : World := { w with pool := w.pool ++ [⟨c, 0⟩] }

def Write.orderUpdates (wr : Write) (st st' : Store) : List OrderUpdate :=
  match wr with
  | .orderStatus o _ | .orderOffer o _ =>
    match st.orders.get o, st'.orders.get o with
    | some before, some after => [⟨o, before, after⟩]
    | _, _ => []
  | .offerStatus _ _ => []

def Write.offerUpdates (wr : Write) (st st' : Store) : List OfferUpdate :=
  match wr with
  | .offerStatus f _ =>
    match st.offers.get f, st'.offers.get f with
    | some before, some after => [⟨f, before, after⟩]
    | _, _ => []
  | .orderStatus _ _ | .orderOffer _ _ => []

def World.wrote (w : World) (i : ℕ) (wr : Write) (st : Store) : World :=
  { w with
    store := st
    past := w.past ++ [st]
    pool := adv w.pool i
    events := w.events ++ wr.orderUpdates w.store st }

def World.handled (w : World) (i : ℕ) (now : Timestamp) (r : Outcome × Store) : World :=
  { w with store := r.2, past := w.past ++ [r.2], delivered := w.delivered ++ [⟨i, now, r.1⟩] }

def World.step (w : World) : Act → Option World
  | .accept k j o f =>
    match w.past[k]?.bind (·.orders.get o), w.past[j]?.bind (·.offers.get f) with
    | some order, some offer => (showOffer order offer).map w.start
    | _, _ => none
  | .cancel k o =>
    match w.past[k]?.bind (·.orders.get o) with
    | some order => (cancelItem order).map w.start
    | none => none
  | .write i =>
    match w.pool[i]?.bind (·.next Call.writes) with
    | some wr => (wr.apply w.store).map (w.wrote i wr)
    | none => none
  | .deliver i now =>
    if i ∈ w.delivered.map Delivery.event then none
    else
      match w.events[i]? with
      | some u => some (w.handled i now (handleOrderCancellation now u w.store))
      | none => none

/-! ## What a step does -/

/-- The next write of a call, as a change of the order it is about. -/
inductive OrderWrite (o : String) : Thread Call → OrderModel → OrderModel → Prop
  | acceptStatus (paid f d) : OrderWrite o ⟨.accept paid o f, 0⟩ d (d.withStatus .inProgress)
  | acceptOffer (paid f d) : OrderWrite o ⟨.accept paid o f, 1⟩ d (d.withOffer f)
  | cancelStatus (f d) : OrderWrite o ⟨.cancel o f, 0⟩ d (d.withStatus .cancelled)

inductive OfferWrite (f : String) : Thread Call → OfferModel → OfferModel → Prop
  | accept (paid o e) : OfferWrite f ⟨.accept paid o f, 2⟩ e (e.withStatus .accepted)
  | cancel (o e) : OfferWrite f ⟨.cancel o f, 1⟩ e (e.withStatus .orderCancelled)

def World.wroteOrder (w : World) (i : ℕ) (o : String) (d d' : OrderModel) : World :=
  { w with
    store := w.store.putOrder d'
    past := w.past ++ [w.store.putOrder d']
    pool := adv w.pool i
    events := w.events ++ [⟨o, d, d'⟩] }

def World.wroteOffer (w : World) (i : ℕ) (e' : OfferModel) : World :=
  { w with
    store := w.store.putOffer e'
    past := w.past ++ [w.store.putOffer e']
    pool := adv w.pool i }

/-- Everything a step can do. -/
inductive Moves (w : World) : Act → World → Prop
  | accept {k j : ℕ} {st st' : Store} {order : OrderModel} {offer : OfferModel}
      (hk : st ∈ w.past) (ho : st.orders.get order.id = some order)
      (hj : st' ∈ w.past) (hf : st'.offers.get offer.offerId = some offer) (hof : offer.orderId = order.id) :
      Moves w (.accept k j order.id offer.offerId)
        (w.start (.accept (decide (order.paymentOption = .electronic)) order.id offer.offerId))
  | cancel {k : ℕ} {st : Store} {order : OrderModel} (hk : st ∈ w.past)
      (ho : st.orders.get order.id = some order) (hs : order.status = .inProgress) :
      Moves w (.cancel k order.id) (w.start (.cancel order.id order.offerId))
  | order {i : ℕ} {t : Thread Call} {o : String} {d d' : OrderModel} (hi : w.pool[i]? = some t)
      (hd : w.store.orders.get o = some d) (hw : OrderWrite o t d d') : Moves w (.write i) (w.wroteOrder i o d d')
  | offer {i : ℕ} {t : Thread Call} {f : String} {e e' : OfferModel} (hi : w.pool[i]? = some t) (hf : f ≠ "")
      (he : w.store.offers.get f = some e) (hw : OfferWrite f t e e') : Moves w (.write i) (w.wroteOffer i e')
  | deliver {i : ℕ} {now : Timestamp} {u : OrderUpdate} (hn : i ∉ w.delivered.map Delivery.event)
      (hu : w.events[i]? = some u) :
      Moves w (.deliver i now) (w.handled i now (handleOrderCancellation now u w.store))

theorem OrderWrite.id {o : String} {t : Thread Call} {d d' : OrderModel} (h : OrderWrite o t d d') :
    d'.id = d.id := by
  cases h <;> rfl

theorem OfferWrite.id {f : String} {t : Thread Call} {e e' : OfferModel} (h : OfferWrite f t e e') :
    e'.offerId = e.offerId := by
  cases h <;> rfl

theorem moves_orderWrite {w w' : World} {i : ℕ} {t : Thread Call} {wr : Write} {o : String}
    {g : OrderModel → OrderModel} (hi : w.pool[i]? = some t) (hwr : wr.apply = fun st => st.updateOrder o g)
    (hev : ∀ {st st' : Store} {d d'}, st.orders.get o = some d → st'.orders.get o = some d' →
      wr.orderUpdates st st' = [⟨o, d, d'⟩])
    (hw : ∀ d, OrderWrite o t d (g d)) (h : (wr.apply w.store).map (w.wrote i wr) = some w') :
    Moves w (.write i) w' := by
  obtain ⟨st, hst, rfl⟩ := Option.map_eq_some_iff.mp h
  rw [hwr] at hst
  obtain ⟨-, d, hd, rfl⟩ := Store.updateOrder_eq_some.mp hst
  have hd' : (w.store.putOrder (g d)).orders.get o = some (g d) := by
    rw [Store.get_putOrder hd (hw d).id, if_pos rfl]
  rw [World.wrote, hev hd hd']
  exact .order hi hd (hw d)

theorem moves_offerWrite {w w' : World} {i : ℕ} {t : Thread Call} {f : String} {s : OfferStatus}
    (hi : w.pool[i]? = some t) (hw : ∀ e, OfferWrite f t e (e.withStatus s))
    (h : ((Write.offerStatus f s).apply w.store).map (w.wrote i (.offerStatus f s)) = some w') :
    Moves w (.write i) w' := by
  obtain ⟨st, hst, rfl⟩ := Option.map_eq_some_iff.mp h
  obtain ⟨hf, e, he, rfl⟩ := Store.updateOffer_eq_some.mp hst
  rw [World.wrote, Write.orderUpdates, List.append_nil]
  exact .offer hi hf he (hw e)

theorem moves_write {w w' : World} {i : ℕ} {t : Thread Call} {wr : Write} (hi : w.pool[i]? = some t)
    (hwr : t.next Call.writes = some wr) (h : (wr.apply w.store).map (w.wrote i wr) = some w') :
    Moves w (.write i) w' := by
  obtain ⟨c, pc⟩ := t
  cases c with
  | accept paid o f =>
    match pc with
    | 0 =>
      obtain rfl := Option.some.inj hwr
      exact moves_orderWrite hi rfl (fun hd hd' => by simp only [Write.orderUpdates, hd, hd'])
        (.acceptStatus paid f) h
    | 1 =>
      obtain rfl := Option.some.inj hwr
      exact moves_orderWrite hi rfl (fun hd hd' => by simp only [Write.orderUpdates, hd, hd'])
        (.acceptOffer paid f) h
    | 2 =>
      obtain rfl := Option.some.inj hwr
      exact moves_offerWrite hi (.accept paid o) h
    | _ + 3 => cases hwr
  | cancel o f =>
    match pc with
    | 0 =>
      obtain rfl := Option.some.inj hwr
      exact moves_orderWrite hi rfl (fun hd hd' => by simp only [Write.orderUpdates, hd, hd']) (.cancelStatus f) h
    | 1 =>
      obtain rfl := Option.some.inj hwr
      exact moves_offerWrite hi (.cancel o) h
    | _ + 2 => cases hwr

theorem moves_of_step {w w' : World} {a : Act} (h : w.step a = some w') : Moves w a w' := by
  cases a with
  | accept k j o f =>
    simp only [World.step] at h
    split at h
    · rename_i order offer ho hf
      obtain ⟨st, hk, ho⟩ := Option.bind_eq_some_iff.mp ho
      obtain ⟨st', hj, hf⟩ := Option.bind_eq_some_iff.mp hf
      obtain ⟨c, hc, rfl⟩ := Option.map_eq_some_iff.mp h
      obtain ⟨rfl, hof⟩ := showOffer_eq_some hc
      obtain rfl := st.orders.key_get ho
      obtain rfl := st'.offers.key_get hf
      exact .accept (List.mem_of_getElem? hk) ho (List.mem_of_getElem? hj) hf hof
    · cases h
  | cancel k o =>
    simp only [World.step] at h
    split at h
    · rename_i order ho
      obtain ⟨st, hk, ho⟩ := Option.bind_eq_some_iff.mp ho
      obtain ⟨c, hc, rfl⟩ := Option.map_eq_some_iff.mp h
      obtain rfl := st.orders.key_get ho
      rw [cancelItem_eq_some hc]
      refine .cancel (List.mem_of_getElem? hk) ho ?_
      unfold cancelItem at hc
      split at hc
      · assumption
      · cases hc
    · cases h
  | write i =>
    simp only [World.step] at h
    split at h
    · rename_i wr hwr
      obtain ⟨t, hi, hwr⟩ := Option.bind_eq_some_iff.mp hwr
      exact moves_write hi hwr h
    · cases h
  | deliver i now =>
    simp only [World.step] at h
    split at h
    · cases h
    · rename_i hn
      split at h
      · rename_i u hu
        exact (Option.some.inj h) ▸ .deliver hn hu
      · cases h

section
variable {w w' : World} {a : Act}

theorem order_step (h : w.step a = some w') (o : String) :
    w'.store.orders.get o = w.store.orders.get o ∨ ∃ i t d d', a = .write i ∧ w.pool[i]? = some t ∧
      w.store.orders.get o = some d ∧ w'.store.orders.get o = some d' ∧ OrderWrite o t d d' ∧
        w' = w.wroteOrder i o d d' := by
  cases moves_of_step h with
  | accept => exact Or.inl rfl
  | cancel => exact Or.inl rfl
  | offer => exact Or.inl rfl
  | deliver => exact Or.inl (by rw [World.handled, handleOrderCancellation_orders])
  | @order i t o' d d' hi hd hw =>
    have hget : (w.wroteOrder i o' d d').store.orders.get o =
        if o = o' then some d' else w.store.orders.get o := Store.get_putOrder hd hw.id o
    by_cases ho : o = o'
    · subst ho
      exact Or.inr ⟨i, t, d, d', rfl, hi, hd, by rw [hget, if_pos rfl], hw, rfl⟩
    · exact Or.inl (by rw [hget, if_neg ho])

/-- A call of the pool after a step was there, or has just begun, or has made
the write of the step. -/
theorem pool_step (h : w.step a = some w') {t' : Thread Call} (ht' : t' ∈ w'.pool) :
    t' ∈ w.pool ∨ t'.pc = 0 ∨ ∃ i t, a = .write i ∧ w.pool[i]? = some t ∧ t' = t.bump := by
  have hstart : ∀ c, t' ∈ (w.start c).pool → t' ∈ w.pool ∨ t'.pc = 0 := by
    intro c hc
    rcases List.mem_append.mp hc with hc | hc
    · exact Or.inl hc
    · exact Or.inr (List.mem_singleton.mp hc ▸ rfl)
  have hadv : ∀ i t, w.pool[i]? = some t → t' ∈ adv w.pool i → t' ∈ w.pool ∨ t' = t.bump :=
    fun i t hi hm => (Threads.mem_adv hi hm).symm
  cases moves_of_step h with
  | accept => exact (hstart _ ht').imp_right Or.inl
  | cancel => exact (hstart _ ht').imp_right Or.inl
  | order hi => exact (hadv _ _ hi ht').imp_right fun hb => Or.inr ⟨_, _, rfl, hi, hb⟩
  | offer hi => exact (hadv _ _ hi ht').imp_right fun hb => Or.inr ⟨_, _, rfl, hi, hb⟩
  | deliver => exact Or.inl ht'

end

/-! ## One call without the others -/

theorem write_step {w : World} {i : ℕ} {t : Thread Call} {wr : Write} {st : Store} (hi : w.pool[i]? = some t)
    (hwr : t.next Call.writes = some wr) (h : wr.apply w.store = some st) :
    w.step (.write i) = some (w.wrote i wr st) := by
  simp only [World.step, hi, Option.bind_some, hwr, h, Option.map_some]

theorem run_writes {i : ℕ} {c : Call} {st : Store} (ws : List Write) : ∀ {w : World} {pc : ℕ},
    w.pool[i]? = some ⟨c, pc⟩ → ws <+: c.writes.drop pc →
    Runs.run (fun st wr => Write.apply wr st) w.store ws = some st →
    ∃ w', Runs.run World.step w (List.replicate ws.length (.write i)) = some w' ∧ w'.store = st := by
  induction ws with
  | nil =>
    intro w pc _ _ h
    exact ⟨w, rfl, Option.some.inj h⟩
  | cons wr ws ih =>
    intro w pc hi hws h
    obtain ⟨st', h1, h2⟩ := (Runs.run_cons_eq_some _).mp h
    obtain ⟨rest, hrest⟩ := hws
    have hnext : Thread.next Call.writes ⟨c, pc⟩ = some wr := by
      rw [Thread.next, ← List.head?_drop, ← hrest]
      rfl
    have hdrop : c.writes.drop (pc + 1) = ws ++ rest := by
      rw [← List.tail_drop, ← hrest]
      rfl
    have hstep : w.step (.write i) = some (w.wrote i wr st') := write_step hi hnext h1
    obtain ⟨w', hr, hst⟩ := ih (w := w.wrote i wr st') (Threads.adv_self hi) ⟨rest, hdrop.symm⟩ h2
    exact ⟨w', (Runs.run_cons_eq_some _).mpr ⟨_, hstep, hr⟩, hst⟩

/-- What a call leaves on its own, however its writes fail, is what some of its
writes leave in a world. -/
theorem tryWrites_in_world {w : World} {i : ℕ} {c : Call} (hi : w.pool[i]? = some ⟨c, 0⟩) (asserts : Bool)
    (fault : ℕ → Bool) (o f : String) (onError : List Effect) :
    ∃ k w', Runs.run World.step w (List.replicate k (.write i)) = some w' ∧
      w'.store = (tryWrites asserts fault o f c.writes onError w.store).1 := by
  unfold tryWrites
  split
  · exact ⟨0, w, rfl, rfl⟩
  · obtain ⟨k, -, hr, -⟩ := @Script.exec_prefix _ _ Write.apply fault c.writes w.store
    exact ⟨_, run_writes _ hi (List.take_prefix k _) hr⟩

theorem acceptOffer_in_world {w : World} {i : ℕ} {paid : Bool} {o f : String}
    (hi : w.pool[i]? = some ⟨.accept paid o f, 0⟩) (asserts : Bool) (fault : ℕ → Bool) :
    ∃ k w', Runs.run World.step w (List.replicate k (.write i)) = some w' ∧
      w'.store = (acceptOffer asserts fault o f w.store).1 :=
  tryWrites_in_world hi asserts fault o f _

theorem cancelOrder_in_world {w : World} {i : ℕ} {o f : String}
    (hi : w.pool[i]? = some ⟨.cancel o f, 0⟩) (asserts : Bool) (fault : ℕ → Bool) :
    ∃ k w', Runs.run World.step w (List.replicate k (.write i)) = some w' ∧
      w'.store = (cancelOrder asserts fault o f w.store).1 :=
  tryWrites_in_world hi asserts fault o f _

/-! ## Runs on the small store -/

def demoPayAndCancel : List Act :=
  [.accept 0 0 "o" "a", .write 0, .write 0, .write 0, .cancel 3 "o", .write 1, .write 1, .deliver 2 9]

/-- Both offers are paid and accepted, each on a page that shows the order
without one. -/
def demoPayBoth : List Act :=
  [.accept 0 0 "o" "a", .write 0, .write 0, .write 0, .accept 0 0 "o" "b", .write 1, .write 1, .write 1]

def demoDeliverAll : List Act := [.deliver 0 9, .deliver 1 9, .deliver 2 9, .deliver 3 9]

end Sayaaratukcom
