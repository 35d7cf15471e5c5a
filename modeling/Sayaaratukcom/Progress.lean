import Mathlib.Data.List.Perm.Subperm
import Sayaaratukcom.Lib.Serial
import Sayaaratukcom.Terms

/-!
# Which calls can make all their writes

The store takes a write when its document exists, and no step makes or removes
a document. So what the first store takes is taken at any time: `acceptOffer`
can always make its next write, and `cancelOrder` is refused its second one, and
ends in its `catch`, exactly when the page that called it named no offer.
-/

namespace Sayaaratukcom

open Threads (Thread adv)

theorem write_of_step {w w' : World} {i : ℕ} (h : w.step (.write i) = some w') :
    ∃ t wr st, w.pool[i]? = some t ∧ t.next Call.writes = some wr ∧ wr.apply w.store = some st ∧
      w' = w.wrote i wr st := by
  simp only [World.step] at h
  split at h
  · rename_i wr hwr
    obtain ⟨t, hi, hwr⟩ := Option.bind_eq_some_iff.mp hwr
    obtain ⟨st, hst, rfl⟩ := Option.map_eq_some_iff.mp h
    exact ⟨t, wr, st, hi, hwr, hst, rfl⟩
  · cases h

def Store.Takes (st : Store) : Write → Prop
  | .orderStatus o _ | .orderOffer o _ => o ≠ "" ∧ (st.orders.get o).isSome
  | .offerStatus f _ => f ≠ "" ∧ (st.offers.get f).isSome

theorem takes_iff {st : Store} {wr : Write} : st.Takes wr ↔ ∃ st', wr.apply st = some st' := by
  rw [← Option.isSome_iff_exists, Option.isSome_iff_ne_none, ne_eq]
  cases wr with
  | orderStatus o s => rw [Write.apply, Store.updateOrder_eq_none, Store.Takes, Option.isSome_iff_ne_none, not_or]
  | orderOffer o f => rw [Write.apply, Store.updateOrder_eq_none, Store.Takes, Option.isSome_iff_ne_none, not_or]
  | offerStatus f s => rw [Write.apply, Store.updateOffer_eq_none, Store.Takes, Option.isSome_iff_ne_none, not_or]

namespace SameTerms
variable {st₀ st st' : Store} {wr : Write}

theorem takes (h : SameTerms st₀ st) : st.Takes wr ↔ st₀.Takes wr := by
  have horder : ∀ o, (st.orders.get o).isSome = (st₀.orders.get o).isSome := by
    intro o
    rw [← Option.isSome_map, h.orders, Option.isSome_map]
  have hoffer : ∀ f, (st.offers.get f).isSome = (st₀.offers.get f).isSome := by
    intro f
    rw [← Option.isSome_map, h.offers, Option.isSome_map]
  cases wr <;> simp only [Store.Takes, horder, hoffer]

end SameTerms

/-! ## Writes that have been made -/

/-- Every write that a call has made is one that the first store takes. -/
def Made (st₀ : Store) (w : World) : Prop :=
  ∀ t ∈ w.pool, ∀ wr ∈ t.call.writes.take t.pc, st₀.Takes wr

theorem made_init (st : Store) : Made st (.init st) := by
  intro t ht
  cases ht

theorem made_step {st₀ : Store} {w w' : World} {a : Act} (ha : Anchored st₀ w) (hm : Made st₀ w)
    (h : w.step a = some w') : Made st₀ w' := by
  intro t' ht' wr hwr
  rcases pool_step h ht' with ht | h0 | ⟨i, t, rfl, ht, rfl⟩
  · exact hm t' ht wr hwr
  · rw [h0] at hwr
    cases hwr
  · obtain ⟨t₁, wr₁, st, hi, hn, hst, -⟩ := write_of_step h
    obtain rfl := Option.some.inj (ht.symm.trans hi)
    rw [Thread.bump_call, Thread.bump_pc, List.take_add_one, show t.call.writes[t.pc]? = some wr₁ from hn] at hwr
    rcases List.mem_append.mp hwr with hwr | hwr
    · exact hm t (List.mem_of_getElem? hi) wr hwr
    · obtain rfl := List.mem_singleton.mp hwr
      exact ha.store.takes.mp (takes_iff.mpr ⟨st, hst⟩)

theorem made_run {st₀ : Store} {w : World} {as : List Act} (h : Runs.run World.step (.init st₀) as = some w) :
    Anchored st₀ w ∧ Made st₀ w := by
  refine Runs.inv_run_free (I := fun w => Anchored st₀ w ∧ Made st₀ w) (fun w a w' hi hs => ?_)
    ⟨anchored_init st₀, made_init st₀⟩ h
  exact ⟨anchored_step hi.1 hs, made_step hi.1 hi.2 hs⟩

/-! ## Running to the end -/

/-- No call has a write to make, and every event has been delivered. -/
def World.AtRest (w : World) : Prop :=
  (∀ t ∈ w.pool, ¬ t.Live Call.writes) ∧ ∀ i < w.events.length, i ∈ w.delivered.map Delivery.event

/-- Every `cancelOrder` that has begun names an offer that exists. -/
def World.CancelsNamed (st₀ : Store) (w : World) : Prop :=
  ∀ o f, .cancel o f ∈ w.pool.map Thread.call → (st₀.offers.get f).isSome

def World.left (w : World) : ℕ :=
  2 * Threads.remaining Call.writes w.pool + (w.events.length - w.delivered.length)

section
variable {st₀ : Store} {w w' : World} {a : Act}

theorem calls_run {as : List Act} {c : Call} (h : Runs.run World.step w as = some w')
    (hc : c ∈ w.pool.map Thread.call) : c ∈ w'.pool.map Thread.call :=
  Runs.inv_run_free (I := fun w => c ∈ w.pool.map Thread.call) (fun _ _ _ hi hs => calls_step hs hi) hc h

theorem orderUpdates_length (wr : Write) (st st' : Store) : (wr.orderUpdates st st').length ≤ 1 := by
  unfold Write.orderUpdates
  repeat' split
  all_goals simp

theorem delivered_lt (ha : Anchored st₀ w) : ∀ i ∈ w.delivered.map Delivery.event, i < w.events.length := by
  intro i hi
  obtain ⟨p, hp, rfl⟩ := List.mem_map.mp hi
  obtain ⟨u, st, hu, -⟩ := ha.delivered p hp
  exact (List.getElem?_eq_some_iff.mp hu).1

theorem delivered_length (ha : Anchored st₀ w) : w.delivered.length ≤ w.events.length := by
  have hsub : w.delivered.map Delivery.event ⊆ List.range w.events.length :=
    fun i hi => List.mem_range.mpr (delivered_lt ha i hi)
  have hle := (List.subperm_of_subset ha.once hsub).length_le
  rwa [List.length_map, List.length_range] at hle

theorem delivered_length_lt (ha : Anchored st₀ w) {i : ℕ} (hi : i < w.events.length)
    (hn : i ∉ w.delivered.map Delivery.event) : w.delivered.length < w.events.length := by
  have hnodup : (i :: w.delivered.map Delivery.event).Nodup := List.nodup_cons.mpr ⟨hn, ha.once⟩
  have hsub : i :: w.delivered.map Delivery.event ⊆ List.range w.events.length := by
    intro j hj
    rcases List.mem_cons.mp hj with rfl | hj
    · exact List.mem_range.mpr hi
    · exact List.mem_range.mpr (delivered_lt ha j hj)
  have hle := (List.subperm_of_subset hnodup hsub).length_le
  rwa [List.length_cons, List.length_map, List.length_range] at hle

theorem left_write (ha : Anchored st₀ w) {i : ℕ} {t : Thread Call} {wr : Write} {st : Store}
    (hi : w.pool[i]? = some t) (hn : t.next Call.writes = some wr) : (w.wrote i wr st).left < w.left := by
  have hrem := Threads.remaining_adv (Threads.live_of_next hn) hi
  have hlen := orderUpdates_length wr w.store st
  have hdel := delivered_length ha
  simp only [World.left, World.wrote, List.length_append]
  omega

theorem left_deliver {i : ℕ} {now : Timestamp} {r : Outcome × Store}
    (hlt : w.delivered.length < w.events.length) : (w.handled i now r).left < w.left := by
  simp only [World.left, World.handled, List.length_append, List.length_singleton]
  omega

/-- A call whose offer has a document has only writes that the store takes. -/
theorem takes_of_called (ho : st₀.orders.get "" = none) (hf : st₀.offers.get "" = none) {c : Call}
    (hc : c.Known st₀) (hn : ∀ o f, c = .cancel o f → (st₀.offers.get f).isSome) {wr : Write}
    (hwr : wr ∈ c.writes) : st₀.Takes wr := by
  have horder : ∀ o d, st₀.orders.get o = some d → o ≠ "" ∧ (st₀.orders.get o).isSome := by
    intro o d hd
    refine ⟨?_, hd ▸ rfl⟩
    rintro rfl
    rw [ho] at hd
    cases hd
  have hoffer : ∀ f, (st₀.offers.get f).isSome → f ≠ "" ∧ (st₀.offers.get f).isSome := by
    intro f h
    refine ⟨?_, h⟩
    rintro rfl
    rw [hf] at h
    cases h
  cases c with
  | accept paid o f =>
    obtain ⟨⟨d, hd, -⟩, e, he, -⟩ := hc
    simp only [Call.writes, acceptWrites, List.mem_cons, List.not_mem_nil, or_false] at hwr
    rcases hwr with rfl | rfl | rfl
    · exact horder o d hd
    · exact horder o d hd
    · exact hoffer f (he ▸ rfl)
  | cancel o f =>
    obtain ⟨d, hd⟩ := hc
    simp only [Call.writes, cancelWrites, List.mem_cons, List.not_mem_nil, or_false] at hwr
    rcases hwr with rfl | rfl
    · exact horder o d hd
    · exact hoffer f (hn o f rfl)

theorem step_towards_rest (ho : st₀.orders.get "" = none) (hf : st₀.offers.get "" = none) (ha : Anchored st₀ w)
    (hn : w.CancelsNamed st₀) (hr : ¬ w.AtRest) :
    ∃ a w', w.step a = some w' ∧ (Anchored st₀ w' ∧ w'.CancelsNamed st₀) ∧ w'.left < w.left := by
  by_cases hl : ∃ t ∈ w.pool, t.Live Call.writes
  · obtain ⟨t, ht, hlive⟩ := hl
    obtain ⟨i, hi⟩ := List.mem_iff_getElem?.mp ht
    obtain ⟨wr, hnext⟩ : ∃ wr, t.next Call.writes = some wr := ⟨_, List.getElem?_eq_getElem hlive⟩
    have hcall : t.call ∈ w.pool.map Thread.call := List.mem_map_of_mem ht
    obtain ⟨st, hst⟩ := takes_iff.mp (ha.store.takes.mpr
      (takes_of_called ho hf (ha.calls _ hcall) (fun o f hc => hn o f (hc ▸ hcall)) (List.mem_of_getElem? hnext)))
    have hs := write_step hi hnext hst
    refine ⟨_, _, hs, ⟨anchored_step ha hs, fun o f hc => hn o f ?_⟩, left_write ha hi hnext⟩
    simpa only [World.wrote, Threads.map_call_adv] using hc
  · have hq : ∀ t ∈ w.pool, ¬ t.Live Call.writes := fun t ht hlive => hl ⟨t, ht, hlive⟩
    have hd : ∃ i < w.events.length, i ∉ w.delivered.map Delivery.event := by
      by_contra hd
      refine hr ⟨hq, fun i hi => ?_⟩
      by_contra hin
      exact hd ⟨i, hi, hin⟩
    obtain ⟨i, hi, hni⟩ := hd
    have hs : w.step (.deliver i 0) = some (w.handled i 0 (handleOrderCancellation 0 w.events[i] w.store)) := by
      rw [World.step, if_neg hni, List.getElem?_eq_getElem hi]
    exact ⟨_, _, hs, ⟨anchored_step ha hs, hn⟩, left_deliver (delivered_length_lt ha hi hni)⟩

end

/-- From any state some continuation lets every call make all its writes, none of
them refused, and delivers every event, exactly if each `cancelOrder` that has begun
names an offer that exists. -/
theorem can_rest_iff {st : Store} (ho : st.orders.get "" = none) (hf : st.offers.get "" = none) {as : List Act}
    {w : World} (h : Runs.run World.step (.init st) as = some w) :
    (∃ bs w', Runs.run World.step w bs = some w' ∧ w'.AtRest) ↔ w.CancelsNamed st := by
  obtain ⟨ha, hm⟩ := made_run h
  constructor
  · intro hr o f hc
    obtain ⟨bs, w', hbs, hrest, -⟩ := hr
    have hm' : Made st w' := by
      have hrun : Runs.run World.step (.init st) (as ++ bs) = some w' := by
        rw [Runs.run_append, h]
        exact hbs
      exact (made_run hrun).2
    obtain ⟨t, ht, hcall⟩ := List.mem_map.mp (calls_run hbs hc)
    have hall : t.call.writes.take t.pc = t.call.writes := List.take_of_length_le (Nat.le_of_not_lt (hrest t ht))
    have hwr : Write.offerStatus f .orderCancelled ∈ t.call.writes.take t.pc := by
      rw [hall, hcall]
      exact List.mem_cons_of_mem _ (List.mem_singleton_self _)
    exact (hm' t ht _ hwr).2
  · intro hn
    obtain ⟨bs, w', hbs, -, hrest⟩ := Runs.reach_of_measure World.left
      (fun w hi hr => step_towards_rest ho hf hi.1 hi.2 hr) w ⟨ha, hn⟩
    exact ⟨bs, w', hbs, hrest⟩

/-- The order is cancelled while it names no offer, by a page that shows it
half-way through its acceptance: the offer's update is refused. -/
def demoRefusedCancel : List Act := [.accept 0 0 "o" "a", .write 0, .cancel 1 "o", .write 1]

theorem refused_cancel : ∃ w, Runs.run World.step (.init demoStore) demoRefusedCancel = some w ∧
    ¬ ∃ bs w', Runs.run World.step w bs = some w' ∧ w'.AtRest := by
  have h : (Runs.run World.step (.init demoStore) demoRefusedCancel).map (fun w =>
      decide (.cancel "o" "" ∈ w.pool.map Thread.call)) = some true := by decide +kernel
  obtain ⟨w, hw, hcall⟩ := Option.map_eq_some_iff.mp h
  refine ⟨w, hw, fun hrest => ?_⟩
  have hnamed := (can_rest_iff (by decide +kernel) (by decide +kernel) hw).mp hrest
  have hoffer := hnamed "o" "" (of_decide_eq_true hcall)
  revert hoffer
  decide +kernel

end Sayaaratukcom
