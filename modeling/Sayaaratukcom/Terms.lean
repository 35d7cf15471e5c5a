import Sayaaratukcom.World

/-!
# What no step changes

A step changes an order in its status and offer id, an offer in its status and
a user in the balance. Everything else a page, a call or an event carries is
therefore that of the store the run began with.
-/

namespace Sayaaratukcom

open Threads (Thread adv)

/-- The order without what calls write. -/
def OrderModel.terms (d : OrderModel) : OrderModel := (d.withStatus .awaitingOffers).withOffer ""

def OfferModel.terms (e : OfferModel) : OfferModel := e.withStatus .pending

@[simp] theorem OrderModel.terms_withStatus (d : OrderModel) (s : OrderStatus) :
    (d.withStatus s).terms = d.terms := rfl

@[simp] theorem OfferModel.terms_withStatus (e : OfferModel) (s : OfferStatus) :
    (e.withStatus s).terms = e.terms := rfl

theorem OrderModel.user_of_terms {d d' : OrderModel} (h : d.terms = d'.terms) : d.user = d'.user :=
  show d.terms.user = d'.terms.user by rw [h]

theorem OrderModel.paymentOption_of_terms {d d' : OrderModel} (h : d.terms = d'.terms) :
    d.paymentOption = d'.paymentOption :=
  show d.terms.paymentOption = d'.terms.paymentOption by rw [h]

theorem OfferModel.orderId_of_terms {e e' : OfferModel} (h : e.terms = e'.terms) : e.orderId = e'.orderId :=
  show e.terms.orderId = e'.terms.orderId by rw [h]

theorem OfferModel.price_of_terms {e e' : OfferModel} (h : e.terms = e'.terms) : e.price = e'.price :=
  show e.terms.price = e'.terms.price by rw [h]

/-- `st'` has the documents of `st`, up to what steps may change. -/
structure SameTerms (st st' : Store) : Prop where
  orders : ∀ o, (st'.orders.get o).map OrderModel.terms = (st.orders.get o).map OrderModel.terms
  offers : ∀ f, (st'.offers.get f).map OfferModel.terms = (st.offers.get f).map OfferModel.terms
  users : ∀ uid, (st'.users uid).isSome = (st.users uid).isSome

namespace SameTerms
variable {st₀ st : Store}

theorem refl (st : Store) : SameTerms st st := ⟨fun _ => rfl, fun _ => rfl, fun _ => rfl⟩

theorem order (h : SameTerms st₀ st) {o : String} {d : OrderModel} (hd : st.orders.get o = some d) :
    ∃ d₀, st₀.orders.get o = some d₀ ∧ d₀.terms = d.terms := by
  have := h.orders o
  rw [hd, Option.map_some] at this
  exact Option.map_eq_some_iff.mp this.symm

theorem offer (h : SameTerms st₀ st) {f : String} {e : OfferModel} (he : st.offers.get f = some e) :
    ∃ e₀, st₀.offers.get f = some e₀ ∧ e₀.terms = e.terms := by
  have := h.offers f
  rw [he, Option.map_some] at this
  exact Option.map_eq_some_iff.mp this.symm

theorem offer_of_init (h : SameTerms st₀ st) {f : String} {e₀ : OfferModel} (he : st₀.offers.get f = some e₀) :
    ∃ e, st.offers.get f = some e ∧ e.terms = e₀.terms := by
  have := h.offers f
  rw [he, Option.map_some] at this
  exact Option.map_eq_some_iff.mp this

theorem putOrder (h : SameTerms st₀ st) {o : String} {t : Thread Call} {d d' : OrderModel}
    (hd : st.orders.get o = some d) (hw : OrderWrite o t d d') : SameTerms st₀ (st.putOrder d') := by
  refine ⟨fun k => ?_, h.offers, h.users⟩
  rw [Store.get_putOrder hd hw.id, ← h.orders k]
  split
  · rename_i hk
    have ht : d'.terms = d.terms := by cases hw <;> rfl
    rw [hk, hd, Option.map_some, Option.map_some, ht]
  · rfl

theorem putOffer (h : SameTerms st₀ st) {f : String} {t : Thread Call} {e e' : OfferModel}
    (he : st.offers.get f = some e) (hw : OfferWrite f t e e') : SameTerms st₀ (st.putOffer e') := by
  refine ⟨h.orders, fun k => ?_, h.users⟩
  rw [Store.get_putOffer he hw.id, ← h.offers k]
  split
  · rename_i hk
    have ht : e'.terms = e.terms := by cases hw <;> rfl
    rw [hk, he, Option.map_some, Option.map_some, ht]
  · rfl

theorem handled (h : SameTerms st₀ st) (now : Timestamp) (u : OrderUpdate) :
    SameTerms st₀ (handleOrderCancellation now u st).2 := by
  cases hr : readOffer u st with
  | error e => rw [handleOrderCancellation_of_error hr]; exact h
  | ok t =>
    rw [handleOrderCancellation_of_ok hr]
    refine ⟨fun o => ?_, fun f => ?_, fun uid => ?_⟩
    · rw [Store.refund_orders, h.orders]
    · rw [Store.refund_offers, h.offers]
    · rw [Store.users_refund, Option.isSome_map, h.users]

end SameTerms

/-- What a call is about, in terms of the first store: the order exists, and an
accepted offer is one of its offers. -/
def Call.Known (st₀ : Store) : Call → Prop
  | .accept paid o f =>
    (∃ d₀, st₀.orders.get o = some d₀ ∧ paid = decide (d₀.paymentOption = .electronic)) ∧
      ∃ e₀, st₀.offers.get f = some e₀ ∧ e₀.orderId = o
  | .cancel o _ => ∃ d₀, st₀.orders.get o = some d₀

/-- Stores, calls, events and deliveries are about the documents of `st₀`. -/
structure Anchored (st₀ : Store) (w : World) : Prop where
  current : w.store ∈ w.past
  terms : ∀ st ∈ w.past, SameTerms st₀ st
  calls : ∀ c ∈ w.pool.map Thread.call, c.Known st₀
  events : ∀ u ∈ w.events, ∃ d₀, st₀.orders.get u.orderId = some d₀ ∧ d₀.terms = u.after.terms
  delivered : ∀ p ∈ w.delivered, ∃ u st, w.events[p.event]? = some u ∧ SameTerms st₀ st ∧
    p.outcome = (handleOrderCancellation p.now u st).1
  once : (w.delivered.map Delivery.event).Nodup

theorem Anchored.store {st₀ : Store} {w : World} (h : Anchored st₀ w) : SameTerms st₀ w.store :=
  h.terms _ h.current

theorem anchored_init (st : Store) : Anchored st (.init st) where
  current := List.mem_singleton_self st
  terms _ h := List.mem_singleton.mp h ▸ .refl st
  calls _ h := nomatch h
  events _ h := nomatch h
  delivered _ h := nomatch h
  once := List.nodup_nil

theorem mem_calls_start {w : World} {c c' : Call} :
    c' ∈ (w.start c).pool.map Thread.call ↔ c' ∈ w.pool.map Thread.call ∨ c' = c := by
  simp [World.start]

theorem calls_step {w w' : World} {a : Act} {c : Call} (h : w.step a = some w')
    (hc : c ∈ w.pool.map Thread.call) : c ∈ w'.pool.map Thread.call := by
  cases moves_of_step h with
  | accept => exact mem_calls_start.mpr (Or.inl hc)
  | cancel => exact mem_calls_start.mpr (Or.inl hc)
  | order => simpa [World.wroteOrder] using hc
  | offer => simpa [World.wroteOffer] using hc
  | deliver => exact hc

theorem anchored_step {st₀ : Store} {w w' : World} {a : Act} (h : Anchored st₀ w) (hs : w.step a = some w') :
    Anchored st₀ w' := by
  cases moves_of_step hs with
  | accept hk ho hj hf hof =>
    refine { h with calls := fun c hc => ?_ }
    rcases mem_calls_start.mp hc with hc | rfl
    · exact h.calls c hc
    · obtain ⟨d₀, hd, ht⟩ := (h.terms _ hk).order ho
      obtain ⟨e₀, he, het⟩ := (h.terms _ hj).offer hf
      refine ⟨⟨d₀, hd, ?_⟩, e₀, he, (OfferModel.orderId_of_terms het).trans hof⟩
      rw [OrderModel.paymentOption_of_terms ht]
  | cancel hk ho hs =>
    refine { h with calls := fun c hc => ?_ }
    rcases mem_calls_start.mp hc with hc | rfl
    · exact h.calls c hc
    · obtain ⟨d₀, hd, -⟩ := (h.terms _ hk).order ho
      exact ⟨d₀, hd⟩
  | order hi hd hw =>
    have ht := h.store.putOrder hd hw
    refine ⟨by simp [World.wroteOrder], ?_, ?_, fun u hu => ?_, fun p hp => ?_, h.once⟩
    · exact List.forall_mem_append.mpr ⟨h.terms, List.forall_mem_singleton.mpr ht⟩
    · simpa [World.wroteOrder] using h.calls
    · rcases List.mem_append.mp hu with hu | hu
      · exact h.events u hu
      · obtain rfl := List.mem_singleton.mp hu
        exact ht.order (by rw [Store.get_putOrder hd hw.id, if_pos rfl])
    · obtain ⟨u, st, hu, hp⟩ := h.delivered p hp
      refine ⟨u, st, ?_, hp⟩
      exact List.getElem?_append_left (List.getElem?_eq_some_iff.mp hu).1 ▸ hu
  | offer hi hf he hw =>
    refine ⟨by simp [World.wroteOffer], ?_, ?_, h.events, h.delivered, h.once⟩
    · exact List.forall_mem_append.mpr ⟨h.terms, List.forall_mem_singleton.mpr (h.store.putOffer he hw)⟩
    · simpa [World.wroteOffer] using h.calls
  | @deliver i now u hn hu =>
    refine ⟨by simp [World.handled], ?_, h.calls, h.events, fun p hp => ?_, ?_⟩
    · exact List.forall_mem_append.mpr ⟨h.terms, List.forall_mem_singleton.mpr (h.store.handled now u)⟩
    · rcases List.mem_append.mp hp with hp | hp
      · exact h.delivered p hp
      · obtain rfl := List.mem_singleton.mp hp
        exact ⟨u, w.store, hu, h.store, rfl⟩
    · rw [World.handled, List.map_append, List.map_singleton]
      exact List.nodup_append_comm.mp (List.nodup_cons.mpr ⟨hn, h.once⟩)

theorem anchored_run {st₀ : Store} {w : World} {as : List Act}
    (h : Runs.run World.step (.init st₀) as = some w) : Anchored st₀ w :=
  Runs.inv_run_free (fun _ _ _ hi hs => anchored_step hi hs) (anchored_init st₀) h

theorem orderId_of_accept {st₀ : Store} {w : World} (h : Anchored st₀ w) {i : ℕ} {paid : Bool} {o f : String}
    {n : ℕ} (hi : w.pool[i]? = some ⟨.accept paid o f, n⟩) {e : OfferModel}
    (he : w.store.offers.get f = some e) : e.orderId = o := by
  obtain ⟨-, e₀, he₀, ho₀⟩ := h.calls _ (List.mem_map.mpr ⟨_, List.mem_of_getElem? hi, rfl⟩)
  obtain ⟨e₁, he₁, ht⟩ := h.store.offer_of_init he₀
  obtain rfl := Option.some.inj (he.symm.trans he₁)
  exact (OfferModel.orderId_of_terms ht).trans ho₀

/-! ## Between two moments of a run -/

/-- The document without the balance, which refunds write. -/
def UserDoc.account (user : UserDoc) : UserDoc := { user with balance := none }

/-- Documents neither appear nor disappear, nothing but the status and the offer id of an
order, the status of an offer and the balance of a user changes, and records are only added. -/
structure Framed (st st' : Store) : Prop where
  terms : SameTerms st st'
  accounts : ∀ uid, (st'.users uid).map UserDoc.account = (st.users uid).map UserDoc.account
  records : ∀ uid, st.transactions uid <+: st'.transactions uid
  providers : st'.providers = st.providers

section
variable {st₀ st : Store}

theorem Framed.refl (st : Store) : Framed st st := ⟨.refl st, fun _ => rfl, fun _ => List.prefix_rfl, rfl⟩

theorem Framed.refund (h : Framed st₀ st) (t : RefundTask) (now : Timestamp)
    (ht : SameTerms st₀ (st.refund t now)) : Framed st₀ (st.refund t now) := by
  refine ⟨ht, fun uid => ?_, fun uid => (h.records uid).trans ?_, ?_⟩
  · rw [Store.users_refund, Option.map_map, ← h.accounts]
    congr 1
    funext user
    simp only [Function.comp]
    split <;> rfl
  · cases hu : st.users t.userId with
    | none => simp [Store.refund_of_none st t now hu]
    | some user =>
      rw [Store.refund_of_user st t now hu]
      by_cases hid : uid = t.userId
      · subst hid
        simp [Store.commitRefund]
      · simp [Store.commitRefund, hid]
  · cases hu : st.users t.userId with
    | none => rw [Store.refund_of_none st t now hu, h.providers]
    | some user => rw [Store.refund_of_user st t now hu, Store.commitRefund, h.providers]

theorem Framed.handled (h : Framed st₀ st) (now : Timestamp) (u : OrderUpdate) :
    Framed st₀ (handleOrderCancellation now u st).2 := by
  have ht := h.terms.handled now u
  cases hr : readOffer u st with
  | error e =>
    rw [handleOrderCancellation_of_error hr]
    exact h
  | ok t =>
    rw [handleOrderCancellation_of_ok hr] at ht ⊢
    exact h.refund t now ht

theorem framed_step {w w' : World} {a : Act} (h : Framed st₀ w.store) (hs : w.step a = some w') :
    Framed st₀ w'.store := by
  cases moves_of_step hs with
  | accept => exact h
  | cancel => exact h
  | order hi hd hw => exact ⟨h.terms.putOrder hd hw, h.accounts, h.records, h.providers⟩
  | offer hi hf he hw => exact ⟨h.terms.putOffer he hw, h.accounts, h.records, h.providers⟩
  | @deliver i now u hn hu => exact h.handled now u

end

/-- Whatever pages, calls and deliveries do, one moment of a run frames the later ones. -/
theorem run_framed {w w' : World} {as : List Act} (h : Runs.run World.step w as = some w') :
    Framed w.store w'.store :=
  Runs.inv_run_free (I := fun w' => Framed w.store w'.store) (fun _ _ _ hi hs => framed_step hi hs)
    (.refl w.store) h

theorem demo_framed : ∃ w, Runs.run World.step (.init demoStore) demoPayAndCancel = some w ∧
    (w.store.transactions "u").length = 1 ∧ Framed demoStore w.store := by
  have h : (Runs.run World.step (.init demoStore) demoPayAndCancel).map
      (fun w => (w.store.transactions "u").length) = some 1 := by decide +kernel
  obtain ⟨w, hw, hlen⟩ := Option.map_eq_some_iff.mp h
  exact ⟨w, hw, hlen, run_framed hw⟩

end Sayaaratukcom
