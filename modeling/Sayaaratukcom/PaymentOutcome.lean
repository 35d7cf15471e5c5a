import Sayaaratukcom.Payments

/-!
# What becomes of a payment

An order has room for one offer. A paid offer that the order does not name any
more must have been refunded, so every write of `acceptOffer` into the order
has to find the place free, and every cancellation has to refund an offer that
has not been refunded.
-/

namespace Sayaaratukcom

open Threads (Thread adv)

/-- The order and the offer that the step, the second write of `acceptOffer`, is
about to name in it. -/
def World.naming (w : World) (o : String) : Act → Option (OrderModel × String)
  | .write i =>
    match w.pool[i]?.bind (·.next Call.writes) with
    | some (.orderOffer o' f) => if o' = o then (w.store.orders.get o).map fun d => (d, f) else none
    | _ => none
  | _ => none

/-- An offer is named only in an order that is in progress, or when its refund
has been demanded; and no paid offer is replaced before its refund is
demanded. -/
def RoomFor (o : String) (w : World) (a : Act) : Prop :=
  ∀ p ∈ w.naming o a, (p.1.status = .inProgress ∨ w.Demanded o p.2) ∧
    (p.1.offerId = p.2 ∨ p.1.offerId ∉ w.paidOffers o ∨ w.Demanded o p.1.offerId)

instance (o : String) (w : World) (a : Act) : Decidable (RoomFor o w a) :=
  inferInstanceAs (Decidable (∀ p ∈ w.naming o a, (p.1.status = .inProgress ∨ w.Demanded o p.2) ∧
    (p.1.offerId = p.2 ∨ p.1.offerId ∉ w.paidOffers o ∨ w.Demanded o p.1.offerId)))

theorem naming_of_next {w : World} {i : ℕ} {paid : Bool} {o f : String} {d : OrderModel}
    (hi : w.pool[i]? = some ⟨.accept paid o f, 1⟩) (hd : w.store.orders.get o = some d) :
    (d, f) ∈ w.naming o (.write i) := by
  simp [World.naming, hi, Thread.next, Call.writes, acceptWrites, hd]

def Store.Serves (st : Store) (o f : String) : Prop :=
  ∃ d, st.orders.get o = some d ∧ d.status = .inProgress ∧ d.offerId = f

/-- Every call that has named its paid offer is served or has its refund
demanded. -/
def Settled (o : String) (w : World) : Prop :=
  ∀ t ∈ w.pool, ∀ f, t.call = .accept true o f → 2 ≤ t.pc → f ≠ "" → w.store.Serves o f ∨ w.Demanded o f

/-- A call that has made its last write is about an offer with an id. -/
def Ended (o : String) (w : World) : Prop :=
  ∀ t ∈ w.pool, ∀ f, t.call = .accept true o f → 3 ≤ t.pc → f ≠ ""

theorem settled_init (o : String) (st : Store) : Settled o (.init st) := by
  intro t ht
  cases ht

theorem ended_init (o : String) (st : Store) : Ended o (.init st) := by
  intro t ht
  cases ht

section
variable {w w' : World} {a : Act} {o : String}

theorem ended_step (hi : Ended o w) (h : w.step a = some w') : Ended o w' := by
  intro t' ht' f hc hpc
  rcases pool_step h ht' with ht | h0 | ⟨i, t, rfl, ht, rfl⟩
  · exact hi t' ht f hc hpc
  · omega
  · by_cases h3 : 3 ≤ t.pc
    · exact hi t (List.mem_of_getElem? ht) f hc h3
    have h2 : t.pc = 2 := by
      rw [Thread.bump_pc] at hpc
      omega
    cases moves_of_step h with
    | order hi' hd hw =>
      obtain rfl := Option.some.inj (ht.symm.trans hi')
      cases hw <;> cases h2
    | offer hi' hf he hw =>
      obtain rfl := Option.some.inj (ht.symm.trans hi')
      cases hw with
      | accept paid o' e => cases hc; exact hf
      | cancel => cases hc

theorem serves_step (hc : RoomFor o w a) (h : w.step a = some w') {f : String} (hf : f ≠ "")
    (hp : f ∈ w.paidOffers o) (hs : w.store.Serves o f) : w'.store.Serves o f ∨ w'.Demanded o f := by
  obtain ⟨d, hd, hst, hdf⟩ := hs
  rcases order_step h o with ho | ⟨i, t, d₁, d₂, rfl, ht, hd₁, hd₂, hw, hw'⟩
  · exact Or.inl ⟨d, ho.trans hd, hst, hdf⟩
  obtain rfl := Option.some.inj (hd.symm.trans hd₁)
  cases hw with
  | acceptStatus => exact Or.inl ⟨_, hd₂, rfl, hdf⟩
  | acceptOffer paid f' =>
    obtain ⟨-, hroom⟩ := hc (d, f') (naming_of_next ht hd)
    rcases hroom with hff | hnp | hdem
    · exact Or.inl ⟨_, hd₂, hst, hff.symm.trans hdf⟩
    · exact absurd (hdf ▸ hp) hnp
    · exact Or.inr (demanded_step h (hdf ▸ hdem))
  | cancelStatus =>
    refine Or.inr ⟨⟨o, d, d.withStatus .cancelled⟩, ?_, rfl, ⟨?_, rfl⟩, hdf, hf⟩
    · rw [hw']
      exact List.mem_append_right _ (List.mem_singleton_self _)
    · rw [hst]
      simp

theorem settled_step (hi : Settled o w) (hc : RoomFor o w a) (h : w.step a = some w') : Settled o w' := by
  intro t' ht' f hcall hpc hf
  have hold : ∀ t ∈ w.pool, t.call = .accept true o f → 2 ≤ t.pc → w'.store.Serves o f ∨ w'.Demanded o f := by
    intro t ht htc h2
    rcases hi t ht f htc h2 hf with hs | hd
    · exact serves_step hc h hf (mem_paidOffers.mpr (htc ▸ List.mem_map_of_mem ht)) hs
    · exact Or.inr (demanded_step h hd)
  rcases pool_step h ht' with ht | h0 | ⟨i, t, rfl, ht, rfl⟩
  · exact hold t' ht hcall hpc
  · omega
  · by_cases h2 : 2 ≤ t.pc
    · exact hold t (List.mem_of_getElem? ht) hcall h2
    have h1 : t.pc = 1 := by
      rw [Thread.bump_pc] at hpc
      omega
    -- the write that has just been made named the offer
    obtain ⟨c, pc⟩ := t
    obtain rfl : c = .accept true o f := hcall
    obtain rfl : pc = 1 := h1
    cases moves_of_step h with
    | @order _ _ o' d d' hi' hd hw =>
      obtain rfl := Option.some.inj (ht.symm.trans hi')
      cases hw
      obtain ⟨hroom, -⟩ := hc (d, f) (naming_of_next ht hd)
      rcases hroom with hs | hdem
      · refine Or.inl ⟨d.withOffer f, ?_, hs, rfl⟩
        rw [World.wroteOrder, Store.get_putOrder hd (by simp), if_pos rfl]
      · exact Or.inr (demanded_step h hdem)
    | offer hi' hf he hw =>
      obtain rfl := Option.some.inj (ht.symm.trans hi')
      cases hw

end

/-! ## When nothing is pending -/

def World.Quiet (w : World) : Prop :=
  (∀ t ∈ w.pool, ¬ t.Live Call.writes) ∧ ∀ i < w.events.length, i ∈ w.delivered.map Delivery.event

instance (w : World) : Decidable w.Quiet := instDecidableAnd

def World.Refunds (w : World) (o f : String) (p : Delivery) : Prop :=
  (∃ t, p.outcome = .refunded t) ∧ ∃ u, w.events[p.event]? = some u ∧ u.Demands o f

/-- One delivery, and no other, has refunded the offer, at its price and to the
user. -/
def World.RefundedOnce (w : World) (o f uid : String) : Prop :=
  (∃ p ∈ w.delivered, w.Refunds o f p ∧ p.outcome = .refunded ⟨o, uid, w.price f⟩) ∧
    ∀ p ∈ w.delivered, ∀ q ∈ w.delivered, w.Refunds o f p → w.Refunds o f q → p = q

section
variable {st₀ : Store} {w : World} {o f : String} {d₀ : OrderModel}

theorem refunds_unique (ha : Anchored st₀ w) (h1 : DemandedOnce o w) :
    ∀ p ∈ w.delivered, ∀ q ∈ w.delivered, w.Refunds o f p → w.Refunds o f q → p = q := by
  intro p hp q hq hpr hqr
  obtain ⟨-, u, hu, hdu⟩ := hpr
  obtain ⟨-, v, hv, hdv⟩ := hqr
  exact List.inj_on_of_nodup_map ha.once hp hq (h1 _ _ u v f hu hv hdu hdv)

variable (hd₀ : st₀.orders.get o = some d₀) (he : d₀.paymentOption = .electronic) (hid : d₀.user ≠ "")
  (hu₀ : (st₀.users d₀.user).isSome)
include hd₀ he hid hu₀

theorem outcome_of_demand (ha : Anchored st₀ w) (hf : f ∈ w.paidOffers o) {p : Delivery} (hp : p ∈ w.delivered)
    {u : OrderUpdate} (hu : w.events[p.event]? = some u) (hdem : u.Demands o f) :
    p.outcome = .refunded ⟨o, d₀.user, w.price f⟩ := by
  obtain ⟨u', st, hu', hst, hout⟩ := ha.delivered p hp
  obtain rfl := Option.some.inj (hu.symm.trans hu')
  obtain ⟨rfl, hc, rfl, hne⟩ := hdem
  obtain ⟨d, hd, ht⟩ := ha.events u (List.mem_of_getElem? hu)
  obtain rfl := Option.some.inj (hd₀.symm.trans hd)
  obtain ⟨-, e₀, he₀, -⟩ := ha.calls _ (mem_paidOffers.mp hf)
  obtain ⟨e, he', het⟩ := hst.offer_of_init he₀
  have hread : readOffer u st = .ok ⟨u.orderId, d₀.user, w.price u.after.offerId⟩ := by
    rw [readOffer_eq_ok, OrderModel.user_of_terms ht]
    refine ⟨hc, (OrderModel.paymentOption_of_terms ht).symm.trans he, hne, ?_, e, he', ?_⟩
    · rw [← OrderModel.user_of_terms ht]
      exact hid
    · rw [price_eq ha he₀, OfferModel.price_of_terms het]
  rw [hout]
  exact outcome_eq_refunded.mpr ⟨hread, by rw [hst.users]; exact hu₀⟩

theorem refundedOnce_of_demanded (ha : Anchored st₀ w) (h1 : DemandedOnce o w) (hq : w.Quiet)
    (hf : f ∈ w.paidOffers o) (hdem : w.Demanded o f) : w.RefundedOnce o f d₀.user := by
  refine ⟨?_, refunds_unique ha h1⟩
  obtain ⟨u, hu, hdem⟩ := hdem
  obtain ⟨i, hi⟩ := List.mem_iff_getElem?.mp hu
  obtain ⟨p, hp, rfl⟩ := List.mem_map.mp (hq.2 i (List.getElem?_eq_some_iff.mp hi).1)
  have hout := outcome_of_demand hd₀ he hid hu₀ ha hf hp hi hdem
  exact ⟨p, hp, ⟨⟨_, hout⟩, u, hi, hdem⟩, hout⟩

/-- When nothing is pending, each paid offer is served or has been refunded
once, in every run whose writes find room for the offers they name and cancel
the order only while the offer it names has not been refunded. -/
theorem paid_served_or_refunded {as : List Act}
    (hc : Runs.Meets World.step (fun w a => NotRefundedYet o w a ∧ RoomFor o w a) (.init st₀) as)
    (h : Runs.run World.step (.init st₀) as = some w) (hq : w.Quiet) (hf : f ∈ w.paidOffers o) :
    w.store.Serves o f ∨ w.RefundedOnce o f d₀.user := by
  have hinv : Anchored st₀ w ∧ DemandedOnce o w ∧ Ended o w ∧ Settled o w := by
    refine Runs.inv_run (I := fun w => Anchored st₀ w ∧ DemandedOnce o w ∧ Ended o w ∧ Settled o w) ?_
      ⟨anchored_init st₀, demandedOnce_init o st₀, ended_init o st₀, settled_init o st₀⟩ hc h
    intro w a w' hinv hcw hs
    obtain ⟨ha, h1, hn, hi⟩ := hinv
    obtain ⟨hnr, hroom⟩ := hcw
    exact ⟨anchored_step ha hs, demandedOnce_step h1 hnr hs, ended_step hn hs, settled_step hi hroom hs⟩
  obtain ⟨ha, h1, hn, hi⟩ := hinv
  obtain ⟨t, ht, hcall⟩ := List.mem_map.mp (mem_paidOffers.mp hf)
  have hpc : 3 ≤ t.pc := by
    have := hq.1 t ht
    rw [Thread.Live, hcall] at this
    exact Nat.not_lt.mp this
  rcases hi t ht f hcall (by omega) (hn t ht f hcall hpc) with hs | hdem
  · exact Or.inl hs
  · exact Or.inr (refundedOnce_of_demanded hd₀ he hid hu₀ ha h1 hq hf hdem)

end

def demoPayAgain : List Act :=
  [.accept 0 0 "o" "a", .write 0, .write 0, .write 0, .cancel 3 "o", .write 1, .write 1, .deliver 2 9,
   .accept 0 0 "o" "b", .write 2, .write 2, .write 2, .deliver 0 9, .deliver 1 9, .deliver 3 9, .deliver 4 9]

theorem pay_again_refunded : ∃ w, Runs.run World.step (.init demoStore) demoPayAgain = some w ∧
    (w.store.Serves "o" "a" ∨ w.RefundedOnce "o" "a" "u") := by
  obtain ⟨w, h⟩ := Option.isSome_iff_exists.mp
    (show (Runs.run World.step (.init demoStore) demoPayAgain).isSome from by decide +kernel)
  have hq : (Runs.run World.step (.init demoStore) demoPayAgain).all (fun w =>
      decide (w.Quiet ∧ "a" ∈ w.paidOffers "o")) = true := by decide +kernel
  rw [h] at hq
  obtain ⟨hq, hf⟩ := of_decide_eq_true hq
  exact ⟨w, h, paid_served_or_refunded (show demoStore.orders.get "o" = some demoOrder by decide) rfl (by decide)
    (by decide) (by decide +kernel) h hq hf⟩

theorem pay_both_lost : ∃ w, Runs.run World.step (.init demoStore) (demoPayBoth ++ demoDeliverAll) = some w ∧
    w.Quiet ∧ "a" ∈ w.paidOffers "o" ∧ ¬ (w.store.Serves "o" "a" ∨ w.RefundedOnce "o" "a" "u") := by
  have h : (Runs.run World.step (.init demoStore) (demoPayBoth ++ demoDeliverAll)).map (fun w =>
      decide (w.Quiet ∧ "a" ∈ w.paidOffers "o" ∧ (w.store.orders.get "o").map (·.offerId) = some "b" ∧
        ∀ p ∈ w.delivered, p.outcome = .ignored)) = some true := by decide +kernel
  obtain ⟨w, hw, hd⟩ := Option.map_eq_some_iff.mp h
  obtain ⟨hq, hf, hb, hout⟩ := of_decide_eq_true hd
  refine ⟨w, hw, hq, hf, ?_⟩
  intro h
  rcases h with ⟨d, hd, -, ha⟩ | ⟨⟨p, hp, -, hr⟩, -⟩
  · rw [hd, Option.map_some, ha] at hb
    revert hb
    decide
  · rw [hout p hp] at hr
    cases hr

end Sayaaratukcom
