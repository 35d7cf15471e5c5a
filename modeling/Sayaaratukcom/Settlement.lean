import Sayaaratukcom.Lib.Deliveries
import Sayaaratukcom.Payments
import Sayaaratukcom.Progress

/-!
# Wallets and the log of events

What the delivery of an event refunds is settled when the event is made: no
later step changes a price, an owner or who has an account. So the wallets
follow from the log of events, in whatever order and at whatever time these are
delivered.
-/

namespace Sayaaratukcom

open Deliveries (received)

def Outcome.task : Outcome → Option RefundTask
  | .refunded t => some t
  | .ignored | .otherPayment | .noSuchOffer | .failed => none

def Delivery.task (p : Delivery) : Option RefundTask := p.outcome.task

/-- The refund that a delivery of `u` makes. -/
def Store.due (st : Store) (u : OrderUpdate) : Option RefundTask := (handleOrderCancellation 0 u st).1.task

def RefundTask.entry (t : RefundTask) : String × Num := (refundText t.orderId, .ofJs t.offerPrice)

def TransactionModel.entry (r : TransactionModel) : String × Num := (r.transaction, r.amount)

section
variable {st₀ st : Store} {u : OrderUpdate} {t : RefundTask}

theorem task_eq_some {e : Outcome} : e.task = some t ↔ e = .refunded t := by
  cases e <;> simp [Outcome.task]

theorem readOffer_of_terms (h : SameTerms st₀ st) : readOffer u st = .ok t ↔ readOffer u st₀ = .ok t := by
  rw [readOffer_eq_ok, readOffer_eq_ok]
  refine and_congr_right fun _ => and_congr_right fun _ => and_congr_right fun _ => and_congr_right fun _ => ?_
  constructor
  · intro hp
    obtain ⟨e, he, rfl⟩ := hp
    obtain ⟨e₀, he₀, ht⟩ := h.offer he
    exact ⟨e₀, he₀, by rw [OfferModel.price_of_terms ht]⟩
  · intro hp
    obtain ⟨e₀, he₀, rfl⟩ := hp
    obtain ⟨e, he, ht⟩ := h.offer_of_init he₀
    exact ⟨e, he, by rw [OfferModel.price_of_terms ht]⟩

/-- It does not matter to which store of the run an event is delivered. -/
theorem task_of_terms (h : SameTerms st₀ st) (now : Timestamp) :
    (handleOrderCancellation now u st).1.task = st₀.due u := by
  refine Option.ext fun t => ?_
  rw [Store.due, task_eq_some, task_eq_some, outcome_eq_refunded, outcome_eq_refunded,
    readOffer_of_terms h, h.users]

theorem due_eq_some : st.due u = some t ↔ readOffer u st = .ok t ∧ (st.users t.userId).isSome := by
  rw [Store.due, task_eq_some, outcome_eq_refunded]

end

/-! ## What has been delivered -/

def World.tasks (w : World) : List RefundTask := w.delivered.filterMap Delivery.task

section
variable {st₀ : Store} {w : World}

theorem tasks_eq (ha : Anchored st₀ w) :
    w.tasks = (received w.events (w.delivered.map Delivery.event)).filterMap st₀.due := by
  rw [World.tasks, received, List.filterMap_map, List.filterMap_filterMap]
  refine List.filterMap_congr fun p hp => ?_
  obtain ⟨u, st, hu, hst, hout⟩ := ha.delivered p hp
  rw [Function.comp_apply, hu, Option.bind_some, Delivery.task, hout, task_of_terms hst]

theorem tasks_subperm (ha : Anchored st₀ w) : List.Subperm w.tasks (w.events.filterMap st₀.due) := by
  obtain ⟨us, hperm, hsub⟩ := Deliveries.received_subperm ha.once (delivered_lt ha)
  rw [tasks_eq ha]
  exact ⟨us.filterMap st₀.due, hperm.filterMap _, hsub.filterMap _⟩

theorem tasks_perm (ha : Anchored st₀ w)
    (hall : ∀ i < w.events.length, i ∈ w.delivered.map Delivery.event) :
    w.tasks.Perm (w.events.filterMap st₀.due) := by
  rw [tasks_eq ha]
  exact (Deliveries.received_perm ha.once (delivered_lt ha) hall).filterMap _

theorem credits_fst (uid : String) (ps : List Delivery) :
    (ps.filterMap (Delivery.credit uid)).map Prod.fst =
      (ps.filterMap Delivery.task).filter fun t => t.userId = uid := by
  induction ps with
  | nil => rfl
  | cons p ps ih =>
    cases hp : p.outcome with
    | refunded t =>
      have htask : p.task = some t := task_eq_some.mpr hp
      by_cases hu : uid = t.userId
      · have hc : Delivery.credit uid p = some (t, p.now) := by simp [Delivery.credit, hp, hu]
        rw [List.filterMap_cons_some hc, List.filterMap_cons_some htask, List.map_cons, ih,
          List.filter_cons_of_pos (by simp [hu])]
      · have hc : Delivery.credit uid p = none := by simp [Delivery.credit, hp, hu]
        rw [List.filterMap_cons_none hc, List.filterMap_cons_some htask, ih,
          List.filter_cons_of_neg (by simp [Ne.symm hu])]
    | _ =>
      have htask : p.task = none := by rw [Delivery.task, hp]; rfl
      have hc : Delivery.credit uid p = none := by rw [Delivery.credit, hp]
      rw [List.filterMap_cons_none hc, List.filterMap_cons_none htask, ih]

theorem credits_entries (ts : List (RefundTask × Timestamp)) :
    (ts.map fun p => refundRecord p.1 p.2).map TransactionModel.entry = (ts.map Prod.fst).map RefundTask.entry := by
  rw [List.map_map, List.map_map]
  rfl

/-- The wallet of a user after a run: the tasks delivered for the user are added
to the balance and to the records. -/
theorem wallet_of_tasks {as : List Act} (h : Runs.run World.step (.init st₀) as = some w) {uid : String}
    {user : UserDoc} (hu : st₀.users uid = some user) :
    ∃ user', w.store.users uid = some user' ∧
      currentBalance user' = currentBalance user +
        ((w.tasks.filter fun t => t.userId = uid).map RefundTask.offerPrice).sum ∧
      (w.store.transactions uid).map TransactionModel.entry =
        (st₀.transactions uid).map TransactionModel.entry ++
          (w.tasks.filter fun t => t.userId = uid).map RefundTask.entry := by
  have hw := wallet_run h uid
  rw [Store.wallet, Store.wallet, hu, Option.map_some, Option.map_some] at hw
  obtain ⟨user', hu', heq⟩ := Option.map_eq_some_iff.mp hw
  have hb := congrArg Wallet.balance heq
  have hr := congrArg Wallet.records heq
  rw [Wallet.credits_balance] at hb
  rw [Wallet.credits_records] at hr
  refine ⟨user', hu', ?_, ?_⟩
  · rw [World.tasks, ← credits_fst, List.map_map]
    exact hb
  · rw [World.tasks, ← credits_fst, ← credits_entries, ← List.map_append]
    exact congrArg _ hr

end

/-- When every event has been delivered the wallet of a user follows from the log
of events: the refunds that are due for its updates have been added, each once. -/
theorem deliveries_settle {st : Store} {as : List Act} {w : World}
    (h : Runs.run World.step (.init st) as = some w)
    (hall : ∀ i < w.events.length, i ∈ w.delivered.map Delivery.event) {uid : String} {user : UserDoc}
    (hu : st.users uid = some user) :
    let dues := (w.events.filterMap st.due).filter fun t => t.userId = uid
    ∃ user', w.store.users uid = some user' ∧
      currentBalance user' = currentBalance user + (dues.map RefundTask.offerPrice).sum ∧
      ((w.store.transactions uid).map TransactionModel.entry).Perm
        ((st.transactions uid).map TransactionModel.entry ++ dues.map RefundTask.entry) := by
  obtain ⟨user', hu', hb, hr⟩ := wallet_of_tasks h hu
  have hperm := (tasks_perm (anchored_run h) hall).filter fun t => t.userId = uid
  refine ⟨user', hu', ?_, ?_⟩
  · rw [hb, (hperm.map _).sum_eq]
  · rw [hr]
    exact (hperm.map _).append_left _

/-- Two refunds, delivered in the order opposite to that of their events. -/
def demoTwoRefunds : List Act :=
  [.accept 0 0 "o" "a", .write 0, .write 0, .write 0, .cancel 3 "o", .write 1, .write 1,
   .accept 0 0 "o" "b", .write 2, .write 2, .write 2, .cancel 8 "o", .write 3, .write 3,
   .deliver 5 8, .deliver 2 9, .deliver 0 9, .deliver 1 9, .deliver 3 9, .deliver 4 9]

theorem demo_settle : ∃ w, Runs.run World.step (.init demoStore) demoTwoRefunds = some w ∧
    let dues := (w.events.filterMap demoStore.due).filter fun t => t.userId = "u"
    ∃ user', w.store.users "u" = some user' ∧
      currentBalance user' = currentBalance demoUser + (dues.map RefundTask.offerPrice).sum ∧
      ((w.store.transactions "u").map TransactionModel.entry).Perm
        ((demoStore.transactions "u").map TransactionModel.entry ++ dues.map RefundTask.entry) := by
  have h : (Runs.run World.step (.init demoStore) demoTwoRefunds).map (fun w =>
      decide (∀ i < w.events.length, i ∈ w.delivered.map Delivery.event)) = some true := by decide +kernel
  obtain ⟨w, hw, hall⟩ := Option.map_eq_some_iff.mp h
  exact ⟨w, hw, deliveries_settle hw (of_decide_eq_true hall) rfl⟩

end Sayaaratukcom
