import Sayaaratukcom.Payments

/-!
# No more is refunded than was paid

The order names, and the events demand, only offers that have been paid. So the
refunds stay below the payments as long as no offer is demanded twice, which
the calls do not see to: a stale page can cancel again while the order still
names an offer that has been refunded.
-/

namespace Sayaaratukcom

open Threads (Thread adv)

def World.paidTotal (w : World) (o : String) : ℚ := ∑ f ∈ (w.paidOffers o).toFinset, w.price f

structure PaidFor (o : String) (w : World) : Prop where
  named : ∀ d, w.store.orders.get o = some d → d.offerId = "" ∨ d.offerId ∈ w.paidOffers o
  demanded : ∀ u ∈ w.events, ∀ f, u.Demands o f → f ∈ w.paidOffers o

section
variable {st₀ : Store} {o : String} {d₀ : OrderModel} (hd₀ : st₀.orders.get o = some d₀)
include hd₀

theorem paidFor_init (hf : d₀.offerId = "") : PaidFor o (.init st₀) := by
  refine ⟨fun d hd => Or.inl ?_, fun u hu => nomatch hu⟩
  rw [← Option.some.inj (hd₀.symm.trans hd), hf]

theorem paidFor_step (he : d₀.paymentOption = .electronic) {w w' : World} {a : Act} (ha : Anchored st₀ w)
    (hi : PaidFor o w) (h : w.step a = some w') : PaidFor o w' := by
  refine ⟨fun d hd => ?_, fun u hu f hdem => ?_⟩
  · rcases order_step h o with ho | ⟨i, t, d₁, d₂, -, ht, hd₁, hd₂, hw, -⟩
    · exact (hi.named d (ho ▸ hd)).imp_right (paidOffers_step h)
    · obtain rfl := Option.some.inj (hd.symm.trans hd₂)
      cases hw with
      | acceptStatus => exact (hi.named d₁ hd₁).imp_right (paidOffers_step h)
      | cancelStatus => exact (hi.named d₁ hd₁).imp_right (paidOffers_step h)
      | acceptOffer paid f =>
        exact Or.inr (paidOffers_step h (paid_of_electronic ha hd₀ he (List.mem_of_getElem? ht) rfl))
  · obtain ⟨i, hi'⟩ := List.mem_iff_getElem?.mp hu
    rcases demands_step h hi' hdem with hu' | ⟨-, d, hd, rfl⟩
    · exact paidOffers_step h (hi.demanded u (List.mem_of_getElem? hu') f hdem)
    · rcases hi.named d (get_of_cancelling hd) with hf | hf
      · exact absurd hf hdem.2.2.2
      · exact paidOffers_step h hf

end

section
variable {st₀ : Store} {w : World} (ha : Anchored st₀ w)
include ha

theorem price_nonneg {o f : String}
    (hpos : ∀ f e, st₀.offers.get f = some e → e.orderId = o → 0 < e.price) (hf : f ∈ w.paidOffers o) :
    0 ≤ w.price f := by
  obtain ⟨-, e₀, he, ho⟩ := ha.calls _ (mem_paidOffers.mp hf)
  rw [price_eq ha he]
  exact (hpos f e₀ he ho).le

def World.offerOf (w : World) (p : Delivery) : String :=
  ((w.events[p.event]?).map fun u => u.after.offerId).getD ""

theorem demand_of_amount {uid o : String} {p : Delivery} (hp : p ∈ w.delivered)
    (hne : p.amount uid o ≠ 0) : ∃ u, w.events[p.event]? = some u ∧ u.Demands o (w.offerOf p) ∧
      p.amount uid o = w.price (w.offerOf p) := by
  unfold Delivery.amount at hne ⊢
  split at hne
  · rename_i t ht
    split at hne
    · rename_i hid
      obtain ⟨u, d₀, e₀, hu, hdem, -, -, he, hprice⟩ := refund_of_delivery ha hp ht
      have hof : w.offerOf p = u.after.offerId := by rw [World.offerOf, hu]; rfl
      refine ⟨u, hu, hof ▸ hid.2 ▸ hdem, ?_⟩
      rw [hof, price_eq ha he, hprice]
      exact if_pos hid
    · exact absurd rfl hne
  · exact absurd rfl hne

/-- Deliveries that each answer a demand of their own refund no more than was
paid for what is demanded. -/
theorem sum_amount_le {uid o : String} (hi : PaidFor o w) (h1 : DemandedOnce o w)
    (hpos : ∀ f e, st₀.offers.get f = some e → e.orderId = o → 0 < e.price) :
    (w.delivered.map (Delivery.amount uid o)).sum ≤ w.paidTotal o := by
  have hinj : ∀ p ∈ w.delivered, ∀ q ∈ w.delivered, p.amount uid o ≠ 0 → q.amount uid o ≠ 0 →
      w.offerOf p = w.offerOf q → p = q := by
    intro p hp q hq hp0 hq0 hpq
    obtain ⟨u, hu, hdu, -⟩ := demand_of_amount ha hp hp0
    obtain ⟨v, hv, hdv, -⟩ := demand_of_amount ha hq hq0
    exact List.inj_on_of_nodup_map ha.once hp hq (h1 _ _ u v _ hu hv hdu (hpq ▸ hdv))
  let paid := w.delivered.toFinset.filter fun p => p.amount uid o ≠ 0
  have hmem : ∀ p ∈ paid, p ∈ w.delivered ∧ p.amount uid o ≠ 0 := by
    intro p hp
    simpa [paid] using hp
  calc (w.delivered.map (Delivery.amount uid o)).sum
      = ∑ p ∈ w.delivered.toFinset, p.amount uid o := (List.sum_toFinset _ (.of_map _ ha.once)).symm
    _ = ∑ p ∈ paid, p.amount uid o := (Finset.sum_filter_ne_zero _).symm
    _ = ∑ p ∈ paid, w.price (w.offerOf p) := by
      refine Finset.sum_congr rfl fun p hp => ?_
      obtain ⟨hp, h0⟩ := hmem p hp
      obtain ⟨-, -, -, heq⟩ := demand_of_amount ha hp h0
      exact heq
    _ = ∑ f ∈ paid.image w.offerOf, w.price f := by
      refine (Finset.sum_image fun p hp q hq hpq => ?_).symm
      obtain ⟨hp, hp0⟩ := hmem p hp
      obtain ⟨hq, hq0⟩ := hmem q hq
      exact hinj p hp q hq hp0 hq0 hpq
    _ ≤ w.paidTotal o := by
      refine Finset.sum_le_sum_of_subset_of_nonneg ?_ fun f hf _ => price_nonneg ha hpos (List.mem_toFinset.mp hf)
      intro f hf
      obtain ⟨p, hp, rfl⟩ := Finset.mem_image.mp hf
      obtain ⟨hp, h0⟩ := hmem p hp
      obtain ⟨u, hu, hdem, -⟩ := demand_of_amount ha hp h0
      exact List.mem_toFinset.mpr (hi.demanded u (List.mem_of_getElem? hu) _ hdem)

end

/-- Of an order that is paid electronically no more is refunded than was paid,
in every run that never cancels the order while it names an offer for which it
has been cancelled before. -/
theorem refunded_le_paid {st : Store} {o : String} {d : OrderModel} (hd : st.orders.get o = some d)
    (he : d.paymentOption = .electronic) (hf : d.offerId = "")
    (hpos : ∀ f e, st.offers.get f = some e → e.orderId = o → 0 < e.price) {as : List Act} {w : World}
    (hc : Runs.Meets World.step (NotRefundedYet o) (.init st) as)
    (h : Runs.run World.step (.init st) as = some w) :
    w.store.refundedFor d.user o - st.refundedFor d.user o ≤ w.paidTotal o := by
  have hinv : Anchored st w ∧ PaidFor o w ∧ DemandedOnce o w := by
    refine Runs.inv_run (I := fun w => Anchored st w ∧ PaidFor o w ∧ DemandedOnce o w) ?_
      ⟨anchored_init st, paidFor_init hd hf, demandedOnce_init o st⟩ hc h
    intro w a w' hi hcw hs
    obtain ⟨ha, hp, h1⟩ := hi
    exact ⟨anchored_step ha hs, paidFor_step hd he ha hp hs, demandedOnce_step h1 hcw hs⟩
  obtain ⟨ha, hp, h1⟩ := hinv
  rw [refundedFor_run h, add_sub_cancel_left]
  exact sum_amount_le ha hp h1 hpos

theorem demo_price_pos {f : String} {e : OfferModel} (h : demoStore.offers.get f = some e) : 0 < e.price := by
  simp only [demoStore, Keyed.get_put, Keyed.get_empty, demoOffer] at h
  split at h
  · rw [← Option.some.inj h]
    decide +kernel
  · split at h
    · rw [← Option.some.inj h]
      decide +kernel
    · cases h

theorem pay_and_cancel_bounded : ∃ w, Runs.run World.step (.init demoStore) demoPayAndCancel = some w ∧
    w.store.refundedFor "u" "o" - demoStore.refundedFor "u" "o" ≤ w.paidTotal "o" := by
  obtain ⟨w, h⟩ := Option.isSome_iff_exists.mp
    (show (Runs.run World.step (.init demoStore) demoPayAndCancel).isSome from by decide +kernel)
  exact ⟨w, h, refunded_le_paid (d := demoOrder) (by decide) rfl rfl (fun _ _ he _ => demo_price_pos he)
    (by decide +kernel) h⟩

/-- Two pages show the order in progress. After the first has cancelled it, `b`
is paid, and the second cancels it while it still names `a`. -/
def demoDoubleCancel : List Act :=
  [.accept 0 0 "o" "a", .write 0, .write 0, .write 0, .cancel 3 "o", .cancel 3 "o", .write 1, .write 1,
   .deliver 2 9, .accept 0 0 "o" "b", .write 3, .write 2, .deliver 4 9]

theorem double_cancel_over_refunds :
    ∃ w, Runs.run World.step (.init demoStore) demoDoubleCancel = some w ∧
      ¬ w.store.refundedFor "u" "o" - demoStore.refundedFor "u" "o" ≤ w.paidTotal "o" := by
  have h : (Runs.run World.step (.init demoStore) demoDoubleCancel).map (fun w =>
      decide (w.store.refundedFor "u" "o" - demoStore.refundedFor "u" "o" ≤ w.paidTotal "o")) = some false := by
    decide +kernel
  obtain ⟨w, hw, hle⟩ := Option.map_eq_some_iff.mp h
  exact ⟨w, hw, of_decide_eq_false hle⟩

end Sayaaratukcom
