import Sayaaratukcom.History
import Sayaaratukcom.RefundBound
import Sayaaratukcom.Settlement

/-!
# Every refund has its payment

The amounts refunded for an order may exceed what was paid for it, but not their
number: between two cancellations of an order another `acceptOffer` has begun,
and an order that is paid electronically begins none without a payment.
-/

namespace Sayaaratukcom

open Threads (Thread adv)

/-- The call has made the first write of `acceptOffer` to order `o`. -/
def begunAccept (o : String) (t : Thread Call) : Bool :=
  match t.call with
  | .accept _ o' _ => o' = o ∧ 0 < t.pc
  | .cancel _ _ => false

def World.acceptances (w : World) (o : String) : ℕ := w.pool.countP (begunAccept o)

def World.cancellations (w : World) (o : String) : ℕ :=
  Paths.entries (fun d : OrderModel => d.status = .cancelled) (w.log o)

structure Counted (o : String) (w : World) : Prop where
  begun : Begun o w
  le : w.cancellations o ≤ w.acceptances o
  lt : ∀ d ∈ w.store.orders.get o, d.status ≠ .cancelled → w.acceptances o = 0 ∨ w.cancellations o < w.acceptances o
  shown : w.ShownInProgress o → 0 < w.acceptances o

theorem counted_init {o : String} {st : Store} {d₀ : OrderModel} (hd₀ : st.orders.get o = some d₀)
    (hs : d₀.status ≠ .inProgress) : Counted o (.init st) where
  begun := begun_init o st
  le := Nat.le_refl 0
  lt _ _ _ := Or.inl rfl
  shown h := by
    obtain ⟨st', hst, d, hd, hst'⟩ := h
    obtain rfl := List.mem_singleton.mp hst
    obtain rfl := Option.some.inj (hd₀.symm.trans hd)
    exact absurd hst' hs

section
variable {st₀ : Store} {w w' : World} {a : Act} {o : String}

theorem begunAccept_accept {paid : Bool} {o' f : String} {n : ℕ} :
    begunAccept o ⟨.accept paid o' f, n⟩ = true ↔ o' = o ∧ 0 < n := decide_eq_true_iff

theorem begunAccept_bump {t : Thread Call} (h : begunAccept o t = true) : begunAccept o t.bump = true := by
  obtain ⟨c, n⟩ := t
  cases c with
  | accept paid o' f => exact begunAccept_accept.mpr ⟨(begunAccept_accept.mp h).1, Nat.succ_pos n⟩
  | cancel o' f => cases h

theorem acceptances_adv {i : ℕ} {t : Thread Call} (hi : w.pool[i]? = some t) :
    w.pool.countP (begunAccept o) ≤ (adv w.pool i).countP (begunAccept o) := by
  have h := Threads.countP_adv (p := begunAccept o) hi
  cases ht : begunAccept o t with
  | true => simpa [ht, begunAccept_bump ht] using h.ge
  | false =>
    simp only [ht, Bool.false_eq_true, if_false, Nat.add_zero] at h
    omega

theorem acceptances_step (h : w.step a = some w') : w.acceptances o ≤ w'.acceptances o := by
  cases moves_of_step h with
  | accept => exact (List.sublist_append_left ..).countP_le
  | cancel => exact (List.sublist_append_left ..).countP_le
  | order hi => exact acceptances_adv hi
  | offer hi => exact acceptances_adv hi
  | deliver => exact Nat.le_refl _

theorem acceptances_begin {i : ℕ} {paid : Bool} {f : String} (hi : w.pool[i]? = some ⟨.accept paid o f, 0⟩)
    (hp : w'.pool = adv w.pool i) : w'.acceptances o = w.acceptances o + 1 := by
  have h := Threads.countP_adv (p := begunAccept o) hi
  rw [World.acceptances, World.acceptances, hp]
  simpa [begunAccept, Thread.bump] using h

theorem cancellations_snoc {d d' : OrderModel} (hl : w'.log o = w.log o ++ [(d, d')]) :
    w'.cancellations o = w.cancellations o + if d.status ≠ .cancelled ∧ d'.status = .cancelled then 1 else 0 := by
  simp [World.cancellations, hl, Paths.entries, List.countP_append, List.countP_singleton]

theorem shown_count_step (ha : Anchored st₀ w) (hc : Counted o w) (h : w.step a = some w')
    (hs : w'.ShownInProgress o) : 0 < w'.acceptances o := by
  have hold : w.ShownInProgress o → 0 < w'.acceptances o :=
    fun hs => (hc.shown hs).trans_le (acceptances_step h)
  obtain ⟨st, hst, d', hd', hs'⟩ := hs
  rcases past_cases h hst with hst | heq
  · exact hold ⟨st, hst, d', hd', hs'⟩
  · rw [heq] at hd'
    rcases log_step h with ⟨-, ho⟩ | ⟨i, t, d, d₂, hi, hd, hd₂, hw, hp, -⟩
    · exact hold ⟨w.store, ha.current, d', ho ▸ hd', hs'⟩
    · obtain rfl := Option.some.inj (hd₂.symm.trans hd')
      cases hw with
      | acceptStatus paid f => rw [acceptances_begin hi hp]; exact Nat.succ_pos _
      | acceptOffer => exact hold ⟨w.store, ha.current, d, hd, hs'⟩
      | cancelStatus => cases hs'

theorem counted_step (ha : Anchored st₀ w) (hc : Counted o w) (h : w.step a = some w') : Counted o w' := by
  have hmono : w.acceptances o ≤ w'.acceptances o := acceptances_step h
  have hle := hc.le
  rcases log_step h with ⟨hlog, ho⟩ | ⟨i, t, d, d', hi, hd, hd', hw, hp, hlog⟩
  · have hsame : w'.cancellations o = w.cancellations o := by rw [World.cancellations, hlog, World.cancellations]
    refine ⟨begun_step hc.begun h, by omega, fun d hd hs => ?_, shown_count_step ha hc h⟩
    have hlt := hc.lt d (ho ▸ hd) hs
    omega
  · have hsnoc := cancellations_snoc hlog
    have hlt := hc.lt d hd
    refine ⟨begun_step hc.begun h, ?_, fun d₁ hd₁ hs => ?_, shown_count_step ha hc h⟩
    · cases hw with
      | acceptStatus =>
        simp at hsnoc
        omega
      | acceptOffer =>
        simp at hsnoc
        omega
      | cancelStatus f =>
        have hpos := hc.shown (hc.begun.cancels f (List.mem_map_of_mem (List.mem_of_getElem? hi)))
        by_cases hs : d.status = .cancelled
        · simp [hs] at hsnoc
          omega
        · have := hlt hs
          simp [hs] at hsnoc
          omega
    · obtain rfl := Option.some.inj (hd'.symm.trans hd₁)
      cases hw with
      | acceptStatus paid f =>
        have hacc := acceptances_begin hi hp
        simp at hsnoc
        omega
      | acceptOffer =>
        have := hlt hs
        simp at hsnoc
        omega
      | cancelStatus => exact absurd rfl hs

end

/-! ## Refunds and payments of an order -/

section
variable {st₀ : Store} {w : World} {o : String}

/-- A refund that is due for an order is due for one of its cancellations. -/
theorem dues_le (w : World) (o : String) :
    (w.events.filterMap st₀.due).countP (fun t => t.orderId = o) ≤ w.cancellations o := by
  rw [World.cancellations, Paths.entries, World.log, List.countP_map, List.countP_filter, List.countP_filterMap]
  refine List.countP_mono_left fun u _ hu => ?_
  cases ht : st₀.due u with
  | none => simp [ht] at hu
  | some t =>
    rw [ht] at hu
    obtain ⟨hr, -⟩ := due_eq_some.mp ht
    obtain ⟨⟨hb, ha⟩, -, -, -, _, -, rfl⟩ := readOffer_eq_ok.mp hr
    simpa [hb, ha] using hu

theorem dues_eq_zero (ha : Anchored st₀ w) {d₀ : OrderModel} (hd₀ : st₀.orders.get o = some d₀)
    (he : d₀.paymentOption ≠ .electronic) :
    (w.events.filterMap st₀.due).countP (fun t => t.orderId = o) = 0 := by
  rw [List.countP_eq_zero]
  intro t ht
  obtain ⟨u, hu, hdue⟩ := List.mem_filterMap.mp ht
  obtain ⟨hr, -⟩ := due_eq_some.mp hdue
  obtain ⟨-, hp, -, -, _, -, rfl⟩ := readOffer_eq_ok.mp hr
  obtain ⟨d, hd, hterms⟩ := ha.events u hu
  rw [decide_eq_true_eq]
  rintro rfl
  obtain rfl := Option.some.inj (hd.symm.trans hd₀)
  exact he ((OrderModel.paymentOption_of_terms hterms).trans hp)

theorem acceptances_le (ha : Anchored st₀ w) {d₀ : OrderModel} (hd₀ : st₀.orders.get o = some d₀)
    (he : d₀.paymentOption = .electronic) : w.acceptances o ≤ (w.paidOffers o).length := by
  rw [World.acceptances, World.paidOffers, List.length_filterMap_eq_countP, List.countP_map]
  refine List.countP_mono_left fun t ht hb => ?_
  obtain ⟨c, n⟩ := t
  cases c with
  | cancel o' f => cases hb
  | accept paid o' f =>
    obtain ⟨rfl, -⟩ := begunAccept_accept.mp hb
    obtain ⟨⟨d, hd, rfl⟩, -⟩ := ha.calls _ (List.mem_map_of_mem ht)
    obtain rfl := Option.some.inj (hd.symm.trans hd₀)
    simp [Call.paidOffer, he]

end

/-- However pages, writes and deliveries are ordered, the owner of an order has
at most as many refunds for it as the order has been paid for. -/
theorem refunds_le_payments {st : Store} {o : String} {d₀ : OrderModel} (hd₀ : st.orders.get o = some d₀)
    (hs : d₀.status ≠ .inProgress) {user : UserDoc} (hu : st.users d₀.user = some user) {as : List Act} {w : World}
    (h : Runs.run World.step (.init st) as = some w) :
    (w.store.transactions d₀.user).countP (fun r => r.transaction = refundText o) ≤
      (st.transactions d₀.user).countP (fun r => r.transaction = refundText o) + (w.paidOffers o).length := by
  have hinv : Anchored st w ∧ Counted o w := by
    refine Runs.inv_run_free (I := fun w => Anchored st w ∧ Counted o w) (fun w a w' hi hs => ?_)
      ⟨anchored_init st, counted_init hd₀ hs⟩ h
    exact ⟨anchored_step hi.1 hs, counted_step hi.1 hi.2 hs⟩
  obtain ⟨ha, hc⟩ := hinv
  obtain ⟨-, -, -, hr⟩ := wallet_of_tasks h hu
  have hcount : ∀ rs : List TransactionModel, rs.countP (fun r => r.transaction = refundText o) =
      (rs.map TransactionModel.entry).countP fun x => x.1 = refundText o := by
    intro rs
    rw [List.countP_map]
    rfl
  have hpaid : (w.events.filterMap st.due).countP (fun t => t.orderId = o) ≤ (w.paidOffers o).length := by
    by_cases he : d₀.paymentOption = .electronic
    · exact (dues_le w o).trans (hc.le.trans (acceptances_le ha hd₀ he))
    · rw [dues_eq_zero ha hd₀ he]
      exact Nat.zero_le _
  rw [hcount, hcount, hr, List.countP_append]
  refine Nat.add_le_add_left ?_ _
  calc ((w.tasks.filter fun t => t.userId = d₀.user).map RefundTask.entry).countP (fun x => x.1 = refundText o)
      = (w.tasks.filter fun t => t.userId = d₀.user).countP (fun t => t.orderId = o) := by
        rw [List.countP_map]
        refine List.countP_congr fun t _ => ?_
        simp [RefundTask.entry, refundText_inj]
    _ ≤ w.tasks.countP (fun t => t.orderId = o) := List.filter_sublist.countP_le
    _ ≤ (w.events.filterMap st.due).countP (fun t => t.orderId = o) := (tasks_subperm ha).countP_le _
    _ ≤ (w.paidOffers o).length := hpaid

theorem demo_refunds_counted : ∃ w, Runs.run World.step (.init demoStore) demoDoubleCancel = some w ∧
    (w.store.transactions "u").countP (fun r => r.transaction = refundText "o") ≤
      (demoStore.transactions "u").countP (fun r => r.transaction = refundText "o") +
        (w.paidOffers "o").length := by
  have h : (Runs.run World.step (.init demoStore) demoDoubleCancel).isSome := by decide +kernel
  obtain ⟨w, hw⟩ := Option.isSome_iff_exists.mp h
  have hd : demoStore.orders.get "o" = some demoOrder := by decide
  exact ⟨w, hw, refunds_le_payments hd (by decide) rfl hw⟩

/-! ## One refund and its payment -/

/-- The refund is one for an order of `uid` that is paid electronically, and has the
price of an offer of that order which has been paid. -/
def World.HasPayment (st₀ : Store) (w : World) (uid : String) (x : String × Num) : Prop :=
  ∃ o d₀ f e₀, st₀.orders.get o = some d₀ ∧ d₀.user = uid ∧ d₀.paymentOption = .electronic ∧
    f ∈ w.paidOffers o ∧ st₀.offers.get f = some e₀ ∧ e₀.orderId = o ∧ x = (refundText o, .ofJs e₀.price)

theorem paidFor_run {st₀ : Store} {o : String} {d₀ : OrderModel} (hd₀ : st₀.orders.get o = some d₀)
    (he : d₀.paymentOption = .electronic) (hf : d₀.offerId = "") {as : List Act} {w : World}
    (h : Runs.run World.step (.init st₀) as = some w) : PaidFor o w := by
  have hinv : Anchored st₀ w ∧ PaidFor o w := by
    refine Runs.inv_run_free (I := fun w => Anchored st₀ w ∧ PaidFor o w) (fun w a w' hi hs => ?_)
      ⟨anchored_init st₀, paidFor_init hd₀ hf⟩ h
    exact ⟨anchored_step hi.1 hs, paidFor_step hd₀ he hi.1 hi.2 hs⟩
  exact hinv.2

theorem payment_of_due {st₀ : Store} (h₀ : ∀ o d, st₀.orders.get o = some d → d.offerId = "") {as : List Act}
    {w : World} (h : Runs.run World.step (.init st₀) as = some w) {u : OrderUpdate} (hu : u ∈ w.events)
    {t : RefundTask} (ht : st₀.due u = some t) : w.HasPayment st₀ t.userId t.entry := by
  have ha := anchored_run h
  obtain ⟨hr, -⟩ := due_eq_some.mp ht
  obtain ⟨hc, hp, hf, -, e₀, he₀, rfl⟩ := readOffer_eq_ok.mp hr
  obtain ⟨d₀, hd₀, hterms⟩ := ha.events u hu
  have he : d₀.paymentOption = .electronic := (OrderModel.paymentOption_of_terms hterms).trans hp
  have hpaid := (paidFor_run hd₀ he (h₀ _ d₀ hd₀) h).demanded u hu _ ⟨rfl, hc, rfl, hf⟩
  obtain ⟨-, e, he', ho⟩ := ha.calls _ (mem_paidOffers.mp hpaid)
  obtain rfl := Option.some.inj (he₀.symm.trans he')
  exact ⟨u.orderId, d₀, u.after.offerId, e₀, hd₀, OrderModel.user_of_terms hterms, he, hpaid, he₀, ho, rfl⟩

/-- Whatever a run adds to the records of a user are refunds that each have a
payment: for an order of this user, of an offer of this order. -/
theorem refund_has_payment {st : Store} (h₀ : ∀ o d, st.orders.get o = some d → d.offerId = "") {as : List Act}
    {w : World} (h : Runs.run World.step (.init st) as = some w) {uid : String} {user : UserDoc}
    (hu : st.users uid = some user) :
    ∃ xs, (w.store.transactions uid).map TransactionModel.entry =
        (st.transactions uid).map TransactionModel.entry ++ xs ∧ ∀ x ∈ xs, w.HasPayment st uid x := by
  obtain ⟨-, -, -, hr⟩ := wallet_of_tasks h hu
  refine ⟨_, hr, fun x hx => ?_⟩
  obtain ⟨t, ht, rfl⟩ := List.mem_map.mp hx
  obtain ⟨ht, huid⟩ := List.mem_filter.mp ht
  obtain ⟨u, hu, hdue⟩ := List.mem_filterMap.mp ((tasks_subperm (anchored_run h)).subset ht)
  exact of_decide_eq_true huid ▸ payment_of_due h₀ h hu hdue

theorem demo_unnamed : ∀ o d, demoStore.orders.get o = some d → d.offerId = "" := by
  intro o d hd
  simp only [demoStore, Keyed.get_put, Keyed.get_empty] at hd
  split at hd
  · rw [← Option.some.inj hd]
    rfl
  · cases hd

theorem demo_refund_paid : ∃ w, Runs.run World.step (.init demoStore) demoTwoRefunds = some w ∧
    ∃ xs, (w.store.transactions "u").map TransactionModel.entry =
        (demoStore.transactions "u").map TransactionModel.entry ++ xs ∧ ∀ x ∈ xs, w.HasPayment demoStore "u" x := by
  have h : (Runs.run World.step (.init demoStore) demoTwoRefunds).isSome := by decide +kernel
  obtain ⟨w, hw⟩ := Option.isSome_iff_exists.mp h
  exact ⟨w, hw, refund_has_payment demo_unnamed hw rfl⟩

end Sayaaratukcom
