import Sayaaratukcom.Agreement
import Sayaaratukcom.Progress

/-!
# Calls that do not overlap

A call writes to its order and to one of the order's offers. As long as no call
begins while another one on its order is half-way, the interleaved writes leave
the orders and offers as the ended calls do when they are made one after the
other, each on its own.
-/

namespace Sayaaratukcom

open Threads (Thread adv effs whole Serial)

/-! ## An order and its offers -/

@[ext] structure Group where
  order : Option OrderModel
  offers : String → Option OfferModel

def Store.group (st : Store) (o : String) : Group :=
  ⟨st.orders.get o, fun f => (st.offers.get f).filter fun e => e.orderId = o⟩

def Write.onGroup : Write → Group → Group
  | .orderStatus _ s, g => { g with order := g.order.map (·.withStatus s) }
  | .orderOffer _ f, g => { g with order := g.order.map (·.withOffer f) }
  | .offerStatus f s, g =>
    { g with offers := fun k => if k = f then (g.offers k).map (·.withStatus s) else g.offers k }

def Call.orderId : Call → String
  | .accept _ o _ | .cancel o _ => o

/-- The write is to order `o` or to one of its offers. -/
def Write.About (st : Store) (o : String) : Write → Prop
  | .orderStatus o' _ | .orderOffer o' _ => o' = o
  | .offerStatus f _ => ∀ e ∈ st.offers.get f, e.orderId = o

theorem group_congr {st st' : Store} (ho : st'.orders = st.orders) (hf : st'.offers = st.offers) :
    st'.group = st.group := by
  funext o
  rw [Store.group, Store.group, ho, hf]

theorem group_putOrder {st : Store} {o : String} {d d' : OrderModel} (hd : st.orders.get o = some d)
    (hid : d'.id = d.id) :
    (st.putOrder d').group = Function.update st.group o { st.group o with order := some d' } := by
  funext k
  by_cases hk : k = o
  · subst hk
    rw [Function.update_self, Store.group, Store.get_putOrder hd hid, if_pos rfl]
    rfl
  · rw [Function.update_of_ne hk, Store.group, Store.get_putOrder hd hid, if_neg hk]
    rfl

theorem group_putOffer {st : Store} {o f : String} {e : OfferModel} (s : OfferStatus)
    (he : st.offers.get f = some e) (ho : e.orderId = o) :
    (st.putOffer (e.withStatus s)).group =
      Function.update st.group o ((Write.offerStatus f s).onGroup (st.group o)) := by
  subst ho
  funext k
  have hget : ∀ g, (st.putOffer (e.withStatus s)).offers.get g =
      if g = f then some (e.withStatus s) else st.offers.get g := Store.get_putOffer he (e.withStatus_offerId s)
  by_cases hk : k = e.orderId
  · subst hk
    rw [Function.update_self]
    refine Group.ext rfl (funext fun g => ?_)
    simp only [Store.group, Write.onGroup, hget]
    by_cases hg : g = f
    · subst hg
      simp [he, Option.filter_some]
    · simp [hg]
  · rw [Function.update_of_ne hk]
    refine Group.ext rfl (funext fun g => ?_)
    simp only [Store.group, hget]
    by_cases hg : g = f
    · subst hg
      simp [he, Option.filter_some, Ne.symm hk]
    · simp [hg]

theorem group_apply {st st' : Store} {o : String} {wr : Write} (ha : wr.About st o)
    (h : wr.apply st = some st') : st'.group = Function.update st.group o (wr.onGroup (st.group o)) := by
  cases wr with
  | orderStatus o' s =>
    obtain rfl : o' = o := ha
    obtain ⟨-, d, hd, rfl⟩ := Store.updateOrder_eq_some.mp h
    rw [group_putOrder hd (d.withStatus_id s), Write.onGroup, show (st.group o').order = some d from hd]
    rfl
  | orderOffer o' f =>
    obtain rfl : o' = o := ha
    obtain ⟨-, d, hd, rfl⟩ := Store.updateOrder_eq_some.mp h
    rw [group_putOrder hd (d.withOffer_id f), Write.onGroup, show (st.group o').order = some d from hd]
    rfl
  | offerStatus f s =>
    obtain ⟨-, e, he, rfl⟩ := Store.updateOffer_eq_some.mp h
    exact group_putOffer s he (ha e he)

/-- The orders and offers of a store are known from the groups. -/
theorem eq_of_group {st₀ st st' : Store} (h : SameTerms st₀ st) (h' : SameTerms st₀ st')
    (hg : st.group = st'.group) : st.orders = st'.orders ∧ st.offers = st'.offers := by
  refine ⟨Keyed.ext fun o => congrArg Group.order (congrFun hg o), Keyed.ext fun f => ?_⟩
  have hsome : ∀ {st : Store}, SameTerms st₀ st → ∀ e₀, st₀.offers.get f = some e₀ →
      st.offers.get f = (st.group e₀.orderId).offers f := by
    intro st h e₀ he₀
    obtain ⟨e, he, ht⟩ := h.offer_of_init he₀
    simp [Store.group, he, Option.filter_some, OfferModel.orderId_of_terms ht]
  cases he₀ : st₀.offers.get f with
  | none =>
    have hnone : ∀ {st : Store}, SameTerms st₀ st → st.offers.get f = none := by
      intro st h
      rw [← Option.map_eq_none_iff, h.offers, he₀, Option.map_none]
    rw [hnone h, hnone h']
  | some e₀ => rw [hsome h e₀ he₀, hsome h' e₀ he₀, hg]

/-! ## Whose offers the calls name -/

/-- An offer that an order of `st` names is one of its own. -/
def NamesOwn (st₀ st : Store) : Prop :=
  ∀ o d, st.orders.get o = some d → ∀ e ∈ st₀.offers.get d.offerId, e.orderId = o

def Call.Owns (st₀ : Store) : Call → Prop
  | .accept _ o f | .cancel o f => ∀ e ∈ st₀.offers.get f, e.orderId = o

structure Owning (st₀ : Store) (w : World) : Prop where
  names : ∀ st ∈ w.past, NamesOwn st₀ st
  calls : ∀ c ∈ w.pool.map Thread.call, c.Owns st₀

theorem owning_init {st : Store} (h : NamesOwn st st) : Owning st (.init st) where
  names _ hst := List.mem_singleton.mp hst ▸ h
  calls _ hc := nomatch hc

section
variable {st₀ : Store} {w w' : World} {a : Act}

theorem owns_of_known {paid : Bool} {o f : String} (h : (Call.accept paid o f).Known st₀) :
    (Call.accept paid o f).Owns st₀ := by
  obtain ⟨-, e₀, he₀, ho⟩ := h
  intro e he
  rw [Option.some.inj (he.symm.trans he₀), ho]

theorem namesOwn_putOrder {o : String} {d d' : OrderModel} (hd : w.store.orders.get o = some d) {t : Thread Call}
    (hw : OrderWrite o t d d') (ht : t.call.Owns st₀) (h : NamesOwn st₀ w.store) :
    NamesOwn st₀ (w.store.putOrder d') := by
  intro k dk hk
  rw [Store.get_putOrder hd hw.id] at hk
  split at hk
  · rename_i hko
    subst hko
    obtain rfl := Option.some.inj hk
    cases hw with
    | acceptStatus => exact h k d hd
    | cancelStatus => exact h k d hd
    | acceptOffer paid f => exact ht
  · exact h k dk hk

theorem owning_step (ha : Anchored st₀ w) (ho : Owning st₀ w) (h : w.step a = some w') : Owning st₀ w' := by
  cases moves_of_step h with
  | accept hk hd hj hf hof =>
    refine ⟨ho.names, fun c hc => ?_⟩
    rcases mem_calls_start.mp hc with hc | rfl
    · exact ho.calls c hc
    · exact owns_of_known ((anchored_step ha h).calls _ (mem_calls_start.mpr (Or.inr rfl)))
  | cancel hk hd hs =>
    refine ⟨ho.names, fun c hc => ?_⟩
    rcases mem_calls_start.mp hc with hc | rfl
    · exact ho.calls c hc
    · exact ho.names _ hk _ _ hd
  | order hi hd hw =>
    refine ⟨List.forall_mem_append.mpr ⟨ho.names, List.forall_mem_singleton.mpr ?_⟩, ?_⟩
    · exact namesOwn_putOrder hd hw (ho.calls _ (List.mem_map_of_mem (List.mem_of_getElem? hi)))
        (ho.names _ ha.current)
    · simpa [World.wroteOrder] using ho.calls
  | offer hi hf he hw =>
    refine ⟨List.forall_mem_append.mpr ⟨ho.names, List.forall_mem_singleton.mpr ?_⟩, ?_⟩
    · exact fun o d hd => ho.names _ ha.current o d hd
    · simpa [World.wroteOffer] using ho.calls
  | @deliver i now u hn hu =>
    refine ⟨List.forall_mem_append.mpr ⟨ho.names, List.forall_mem_singleton.mpr ?_⟩, ho.calls⟩
    intro o d hd
    exact ho.names _ ha.current o d (handleOrderCancellation_orders now u w.store ▸ hd)

theorem about_of_owns {c : Call} (h : c.Owns st₀) {st : Store} (ht : SameTerms st₀ st) {wr : Write}
    (hwr : wr ∈ c.writes) : wr.About st c.orderId := by
  have hoffer : ∀ {o f : String}, (∀ e ∈ st₀.offers.get f, e.orderId = o) →
      ∀ e ∈ st.offers.get f, e.orderId = o := by
    intro o f h e he
    obtain ⟨e₀, he₀, hterms⟩ := ht.offer he
    exact (OfferModel.orderId_of_terms hterms).symm.trans (h e₀ he₀)
  cases c with
  | accept paid o f =>
    simp only [Call.writes, acceptWrites, List.mem_cons, List.not_mem_nil, or_false] at hwr
    rcases hwr with rfl | rfl | rfl
    · rfl
    · rfl
    · exact hoffer h
  | cancel o f =>
    simp only [Call.writes, cancelWrites, List.mem_cons, List.not_mem_nil, or_false] at hwr
    rcases hwr with rfl | rfl
    · rfl
    · exact hoffer h

end

/-! ## One call on its own -/

/-- The store that a call leaves when nothing fails and no other call is made. -/
def Call.made (st : Store) : Call → Store
  | .accept _ o f => (acceptOffer false (fun _ => false) o f st).1
  | .cancel o f => (cancelOrder false (fun _ => false) o f st).1

theorem made_eq (st : Store) (c : Call) : c.made st = (Script.exec Write.apply (fun _ => false) c.writes st).1 := by
  cases c <;> simp [Call.made, acceptOffer, cancelOrder, tryWrites, refThrows, Call.writes]

theorem SameTerms.apply {st₀ st st' : Store} (h : SameTerms st₀ st) {wr : Write} (hw : wr.apply st = some st') :
    SameTerms st₀ st' := by
  have horder : ∀ {o : String} {d d' : OrderModel}, st.orders.get o = some d → d'.id = d.id →
      d'.terms = d.terms → SameTerms st₀ (st.putOrder d') := by
    intro o d d' hd hid ht
    refine ⟨fun k => ?_, h.offers, h.users⟩
    rw [Store.get_putOrder hd hid, ← h.orders k]
    split
    · rename_i hk
      rw [hk, hd, Option.map_some, Option.map_some, ht]
    · rfl
  cases wr with
  | orderStatus o s =>
    obtain ⟨-, d, hd, rfl⟩ := Store.updateOrder_eq_some.mp hw
    exact horder hd rfl rfl
  | orderOffer o f =>
    obtain ⟨-, d, hd, rfl⟩ := Store.updateOrder_eq_some.mp hw
    exact horder hd rfl rfl
  | offerStatus f s =>
    obtain ⟨-, e, he, rfl⟩ := Store.updateOffer_eq_some.mp hw
    refine ⟨h.orders, fun k => ?_, h.users⟩
    rw [Store.get_putOffer he (e.withStatus_offerId s), ← h.offers k]
    split
    · rename_i hk
      rw [hk, he, Option.map_some, Option.map_some, OfferModel.terms_withStatus]
    · rfl

theorem exec_group {st₀ : Store} {o : String} (ws : List Write) : ∀ {st : Store}, SameTerms st₀ st →
    (∀ wr ∈ ws, st₀.Takes wr) → (∀ wr ∈ ws, ∀ st, SameTerms st₀ st → wr.About st o) →
    SameTerms st₀ (Script.exec Write.apply (fun _ => false) ws st).1 ∧
      (Script.exec Write.apply (fun _ => false) ws st).1.group =
        Function.update st.group o (effs Write.onGroup ws (st.group o)) := by
  induction ws with
  | nil =>
    intro st h _ _
    exact ⟨h, (Function.update_eq_self o st.group).symm⟩
  | cons wr ws ih =>
    intro st h ht ha
    obtain ⟨st', hst⟩ := takes_iff.mp (h.takes.mpr (ht wr List.mem_cons_self))
    have hg := group_apply (ha wr List.mem_cons_self st h) hst
    obtain ⟨h1, h2⟩ := ih (h.apply hst) (fun wr' hw => ht wr' (List.mem_cons_of_mem wr hw))
      (fun wr' hw => ha wr' (List.mem_cons_of_mem wr hw))
    rw [Script.exec_landed rfl hst]
    refine ⟨h1, h2.trans ?_⟩
    rw [hg, Function.update_self, Function.update_idem]
    rfl

/-- A call that is made whole changes the group of its order, by all its writes. -/
theorem made_group {st₀ st : Store} (h : SameTerms st₀ st) {c : Call} (ho : c.Owns st₀)
    (ht : ∀ wr ∈ c.writes, st₀.Takes wr) :
    SameTerms st₀ (c.made st) ∧ (c.made st).group = whole Call.orderId Call.writes Write.onGroup st.group c := by
  rw [made_eq]
  exact exec_group c.writes h ht fun wr hw st h => about_of_owns ho h hw

/-! ## Runs -/

/-- The call whose last write the step is. -/
def World.ended (w : World) (a : Act) : Option Call :=
  (w.writer a).bind fun t => if t.bump.Live Call.writes then none else some t.call

/-- A call begins to write only while no other call on its order is half-way. -/
def Apart (w : World) (a : Act) : Prop :=
  ∀ t ∈ w.writer a, t.pc = 0 → ∀ t' ∈ w.pool, t'.call.orderId = t.call.orderId → ¬ t'.Midway Call.writes

instance (w : World) (a : Act) : Decidable (Apart w a) :=
  inferInstanceAs (Decidable (∀ t ∈ w.writer a, t.pc = 0 → ∀ t' ∈ w.pool,
    t'.call.orderId = t.call.orderId → ¬ t'.Midway Call.writes))

/-- The orders and offers are those of `ser`, where the calls that have ended are
made one after the other. -/
structure AsIf (st₀ : Store) (w : World) (ser : Store) : Prop where
  anchored : Anchored st₀ w
  made : Made st₀ w
  owning : Owning st₀ w
  terms : SameTerms st₀ ser
  serial : Serial Call.orderId Call.writes Write.onGroup ser.group w.store.group w.pool

section
variable {st₀ : Store} {w w' : World} {a : Act} {ser : Store}

theorem takes_of_last (hm : Made st₀ w) {i : ℕ} {t : Thread Call} (hi : w.pool[i]? = some t)
    (hl : ¬ t.Live Call.writes) : ∀ wr ∈ t.call.writes, st₀.Takes wr := by
  have hall : t.call.writes.take t.pc = t.call.writes := List.take_of_length_le (Nat.le_of_not_lt hl)
  intro wr hwr
  exact hm t (List.mem_of_getElem? hi) wr (by rw [hall]; exact hwr)

theorem asIf_write {i : ℕ} (h : AsIf st₀ w ser) (hc : Apart w (.write i)) (hs : w.step (.write i) = some w') :
    AsIf st₀ w' ((w.ended (.write i)).toList.foldl Call.made ser) := by
  have ha' := anchored_step h.anchored hs
  have hm' := made_step h.anchored h.made hs
  have ho' := owning_step h.anchored h.owning hs
  obtain ⟨t, wr, st, hi, hn, hst, rfl⟩ := write_of_step hs
  have howns : t.call.Owns st₀ := h.owning.calls _ (List.mem_map_of_mem (List.mem_of_getElem? hi))
  have hgroup := group_apply (about_of_owns howns h.anchored.store (List.mem_of_getElem? hn)) hst
  have hser := Threads.serial_write hi hn (fun h0 t' ht' hk => hc t hi h0 t' ht' hk) h.serial
  have hended : w.ended (.write i) = if t.bump.Live Call.writes then none else some t.call := by
    simp only [World.ended, World.writer, hi, Option.bind_some]
  have hstore : (w.wrote i wr st).store.group = Function.update w.store.group t.call.orderId
      (wr.onGroup (w.store.group t.call.orderId)) := hgroup
  by_cases hl : t.bump.Live Call.writes
  · rw [if_pos hl] at hended hser
    rw [hended]
    exact ⟨ha', hm', ho', h.terms, hstore ▸ hser⟩
  · rw [if_neg hl] at hended hser
    have hbump : (w.wrote i wr st).pool[i]? = some t.bump := Threads.adv_self hi
    obtain ⟨hterms, hwhole⟩ := made_group h.terms howns (takes_of_last (t := t.bump) hm' hbump hl)
    rw [hended]
    refine ⟨ha', hm', ho', hterms, ?_⟩
    rw [hstore]
    exact hwhole ▸ hser

theorem asIf_step (h : AsIf st₀ w ser) (hc : Apart w a) (hs : w.step a = some w') :
    AsIf st₀ w' ((w.ended a).toList.foldl Call.made ser) := by
  have ha' := anchored_step h.anchored hs
  have hm' := made_step h.anchored h.made hs
  have ho' := owning_step h.anchored h.owning hs
  have hm := moves_of_step hs
  cases a with
  | write i => exact asIf_write h hc hs
  | accept k j o f =>
    cases hm
    exact ⟨ha', hm', ho', h.terms, Threads.serial_start _ h.serial⟩
  | cancel k o =>
    cases hm
    exact ⟨ha', hm', ho', h.terms, Threads.serial_start _ h.serial⟩
  | deliver i now =>
    cases hm
    refine ⟨ha', hm', ho', h.terms, ?_⟩
    rw [World.handled, group_congr (handleOrderCancellation_orders ..) (handleOrderCancellation_offers ..)]
    exact h.serial

end

/-- If no call begins while another on its order is half-way, then at rest the
orders and offers are what the calls leave when they are made one after the
other, in the order in which they have ended. -/
theorem calls_serialize {st : Store} (h₀ : NamesOwn st st) {as : List Act} {w : World}
    (hc : Runs.Meets World.step Apart (.init st) as) (h : Runs.run World.step (.init st) as = some w)
    (hq : ∀ t ∈ w.pool, ¬ t.Midway Call.writes) :
    let ser := (Runs.collect World.step World.ended (.init st) as).foldl Call.made st
    w.store.orders = ser.orders ∧ w.store.offers = ser.offers := by
  have hinit : AsIf st (.init st) st :=
    ⟨anchored_init st, made_init st, owning_init h₀, .refl st, Threads.serial_init _⟩
  have hend : AsIf st w ((Runs.collect World.step World.ended (.init st) as).foldl Call.made st) :=
    Runs.run_collect (fun _ _ _ _ h hc hs => asIf_step h hc hs) hinit hc h
  exact eq_of_group hend.anchored.store hend.terms (Threads.serial_rest hend.serial hq)

def demoTwoOrders : Store :=
  (demoStore.putOrder { demoOrder with id := "q" }).putOffer { demoOffer "c" 20 with orderId := "q" }

theorem demo_namesOwn : NamesOwn demoTwoOrders demoTwoOrders := by
  have hnone : demoTwoOrders.offers.get "" = none := by decide +kernel
  intro o d hd e he
  have hf : d.offerId = "" := by
    simp only [demoTwoOrders, demoStore, Store.putOffer_orders, Store.putOrder, Keyed.get_put,
      Keyed.get_empty] at hd
    split at hd
    · rw [← Option.some.inj hd]
      rfl
    · split at hd
      · rw [← Option.some.inj hd]
        rfl
      · cases hd
  rw [hf, hnone] at he
  cases he

/-- The two orders' calls take turns with their writes, and one order is
cancelled. -/
def demoTurns : List Act :=
  [.accept 0 0 "o" "a", .accept 0 0 "q" "c", .write 0, .write 1, .write 1, .write 0, .cancel 4 "q", .write 1,
   .write 2, .write 0, .write 2]

theorem turns_serialize : ∃ w, Runs.run World.step (.init demoTwoOrders) demoTurns = some w ∧
    let ser := (Runs.collect World.step World.ended (.init demoTwoOrders) demoTurns).foldl Call.made demoTwoOrders
    w.store.orders = ser.orders ∧ w.store.offers = ser.offers := by
  have h : (Runs.run World.step (.init demoTwoOrders) demoTurns).map (fun w =>
      decide (∀ t ∈ w.pool, ¬ t.Midway Call.writes)) = some true := by decide +kernel
  obtain ⟨w, hw, hq⟩ := Option.map_eq_some_iff.mp h
  exact ⟨w, hw, calls_serialize demo_namesOwn (by decide +kernel) hw (of_decide_eq_true hq)⟩

/-! ## Orders do not interfere -/

/-- The write of the step, if it is one of a call on order `o`. -/
def World.writeFor (o : String) (w : World) (a : Act) : Option Write :=
  (w.writer a).bind fun t => if t.call.orderId = o then t.next Call.writes else none

theorem group_step {st₀ : Store} {w w' : World} {a : Act} (ha : Anchored st₀ w) (how : Owning st₀ w)
    (h : w.step a = some w') (o : String) :
    w'.store.group o = (w.writeFor o a).toList.foldl (fun g wr => wr.onGroup g) (w.store.group o) := by
  have hm := moves_of_step h
  cases a with
  | accept k j o' f =>
    cases hm
    rfl
  | cancel k o' =>
    cases hm
    rfl
  | deliver i now =>
    cases hm
    rw [World.handled, group_congr (handleOrderCancellation_orders ..) (handleOrderCancellation_offers ..)]
    rfl
  | write i =>
    obtain ⟨t, wr, st, hi, hn, hst, rfl⟩ := write_of_step h
    have howns : t.call.Owns st₀ := how.calls _ (List.mem_map_of_mem (List.mem_of_getElem? hi))
    have hgroup : (w.wrote i wr st).store.group = _ :=
      group_apply (about_of_owns howns ha.store (List.mem_of_getElem? hn)) hst
    rw [hgroup]
    simp only [World.writeFor, World.writer, hi, Option.bind_some, hn]
    by_cases ho : t.call.orderId = o
    · subst ho
      rw [Function.update_self, if_pos rfl]
      rfl
    · rw [Function.update_of_ne (Ne.symm ho), if_neg ho]
      rfl

/-- What becomes of an order and its offers depends on nothing but the writes that the
calls on this order make, in their order. -/
theorem order_isolated {st : Store} (h₀ : NamesOwn st st) {as : List Act} {w : World}
    (h : Runs.run World.step (.init st) as = some w) (o : String) :
    w.store.group o = (Runs.collect World.step (World.writeFor o) (.init st) as).foldl
      (fun g wr => wr.onGroup g) (st.group o) := by
  have hinit : Anchored st (.init st) ∧ Owning st (.init st) ∧ (World.init st).store.group o = st.group o :=
    ⟨anchored_init st, owning_init h₀, rfl⟩
  refine (Runs.run_collect (R := fun w g => Anchored st w ∧ Owning st w ∧ w.store.group o = g)
    (C := fun _ _ => True) (fun w g a w' hr _ hs => ?_) hinit (Runs.meets_true _ _ _) h).2.2
  obtain ⟨ha, ho, rfl⟩ := hr
  exact ⟨anchored_step ha hs, owning_step ha ho hs, group_step ha ho hs o⟩

theorem turns_isolated : ∃ w, Runs.run World.step (.init demoTwoOrders) demoTurns = some w ∧
    w.store.group "o" = (Runs.collect World.step (World.writeFor "o") (.init demoTwoOrders) demoTurns).foldl
      (fun g wr => wr.onGroup g) (demoTwoOrders.group "o") := by
  have h : (Runs.run World.step (.init demoTwoOrders) demoTurns).isSome := by decide +kernel
  obtain ⟨w, hw⟩ := Option.isSome_iff_exists.mp h
  exact ⟨w, hw, order_isolated demo_namesOwn hw "o"⟩

end Sayaaratukcom
