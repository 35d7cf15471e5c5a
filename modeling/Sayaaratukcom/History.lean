import Sayaaratukcom.Lib.Paths
import Sayaaratukcom.Terms

/-!
# The history of an order

The updates of an order, in the order of its writes, lead from the document the
run began with to the current one. An order leaves its first status with the
first write of an `acceptOffer` and is never seen waiting again; and only an
order that has been in progress is cancelled, because only such a page has the
item for it.
-/

namespace Sayaaratukcom

open Paths (IsPath)
open Threads (Thread adv)

def World.log (w : World) (o : String) : List (OrderModel × OrderModel) :=
  (w.events.filter fun u => u.orderId = o).map fun u => (u.before, u.after)

def OrderModel.Taken (d : OrderModel) : Prop := d.status = .inProgress ∨ d.status = .cancelled

/-- What a write makes of order `o`. -/
inductive World.Change (w : World) (o : String) : OrderModel → OrderModel → Prop
  | accept (d) : Change w o d (d.withStatus .inProgress)
  | name {paid f d} (hc : .accept paid o f ∈ w.pool.map Thread.call) (ht : d.Taken) : Change w o d (d.withOffer f)
  | cancel {d} (ht : d.Taken) : Change w o d (d.withStatus .cancelled)

def World.ShownInProgress (w : World) (o : String) : Prop :=
  ∃ st ∈ w.past, ∃ d ∈ st.orders.get o, d.status = .inProgress

/-- Once a store has shown the order in progress it is taken; and no
`acceptOffer` or `cancelOrder` has written to it before. -/
structure Begun (o : String) (w : World) : Prop where
  taken : ∀ st ∈ w.past, ∀ d ∈ st.orders.get o, d.status = .inProgress → ∀ d' ∈ w.store.orders.get o, d'.Taken
  cancels : ∀ f, .cancel o f ∈ w.pool.map Thread.call → w.ShownInProgress o
  accepts : ∀ t ∈ w.pool, ∀ paid f, t.call = .accept paid o f → 0 < t.pc → w.ShownInProgress o

theorem begun_init (o : String) (st : Store) : Begun o (.init st) where
  taken st' hst d hd hs d' hd' := by
    obtain rfl := List.mem_singleton.mp hst
    obtain rfl := Option.some.inj (hd.symm.trans hd')
    exact Or.inl hs
  cancels _ hc := nomatch hc
  accepts _ ht := nomatch ht

section
variable {st₀ : Store} {w w' : World} {a : Act} {o : String}

theorem past_step (h : w.step a = some w') {st : Store} (hst : st ∈ w.past) : st ∈ w'.past := by
  cases moves_of_step h with
  | accept => exact hst
  | cancel => exact hst
  | order => exact List.mem_append_left _ hst
  | offer => exact List.mem_append_left _ hst
  | deliver => exact List.mem_append_left _ hst

/-- A store that the step adds is the current one. -/
theorem past_cases (h : w.step a = some w') {st : Store} (hst : st ∈ w'.past) : st ∈ w.past ∨ st = w'.store := by
  cases moves_of_step h with
  | accept => exact Or.inl hst
  | cancel => exact Or.inl hst
  | order => exact (List.mem_append.mp hst).imp_right List.mem_singleton.mp
  | offer => exact (List.mem_append.mp hst).imp_right List.mem_singleton.mp
  | deliver => exact (List.mem_append.mp hst).imp_right List.mem_singleton.mp

/-- A write to the order finds it taken, unless it is the first of `acceptOffer`. -/
theorem taken_of_write (hb : Begun o w) {i : ℕ} {t : Thread Call} {d d' : OrderModel} (hi : w.pool[i]? = some t)
    (hd : w.store.orders.get o = some d) (hw : OrderWrite o t d d') : d'.status = .inProgress ∨ d.Taken := by
  have ht := List.mem_of_getElem? hi
  cases hw with
  | acceptStatus => exact Or.inl rfl
  | acceptOffer paid f =>
    obtain ⟨st, hst, d₁, hd₁, hs⟩ := hb.accepts _ ht paid f rfl Nat.one_pos
    exact Or.inr (hb.taken st hst d₁ hd₁ hs d hd)
  | cancelStatus f =>
    obtain ⟨st, hst, d₁, hd₁, hs⟩ := hb.cancels f (List.mem_map_of_mem ht)
    exact Or.inr (hb.taken st hst d₁ hd₁ hs d hd)

theorem taken_write {t : Thread Call} {d d' : OrderModel} (hw : OrderWrite o t d d') (h : d.Taken) : d'.Taken := by
  cases hw with
  | acceptStatus => exact Or.inl rfl
  | acceptOffer => exact h
  | cancelStatus => exact Or.inr rfl

theorem taken_step (hb : Begun o w) (h : w.step a = some w') {st : Store} (hst : st ∈ w'.past) {d d' : OrderModel}
    (hd : st.orders.get o = some d) (hs : d.status = .inProgress) (hd' : w'.store.orders.get o = some d') :
    d'.Taken := by
  rcases past_cases h hst with hst | rfl
  · have hold := hb.taken st hst d hd hs
    rcases order_step h o with ho | ⟨i, t, d₁, d₂, -, -, hd₁, hd₂, hw, -⟩
    · exact hold d' (ho ▸ hd')
    · obtain rfl := Option.some.inj (hd₂.symm.trans hd')
      exact taken_write hw (hold d₁ hd₁)
  · obtain rfl := Option.some.inj (hd.symm.trans hd')
    exact Or.inl hs

theorem shown_step (h : w.step a = some w') (hs : w.ShownInProgress o) : w'.ShownInProgress o := by
  obtain ⟨st, hst, hd⟩ := hs
  exact ⟨st, past_step h hst, hd⟩

theorem shown_of_accept {i : ℕ} {t : Thread Call} (h : w.step (.write i) = some w') (hi : w.pool[i]? = some t)
    {paid : Bool} {f : String} (hc : t.call = .accept paid o f) (h0 : t.pc = 0) : w'.ShownInProgress o := by
  obtain ⟨c, pc⟩ := t
  obtain rfl : c = .accept paid o f := hc
  obtain rfl : pc = 0 := h0
  cases moves_of_step h with
  | @order _ _ o' d d' hi' hd hw =>
    obtain rfl := Option.some.inj (hi.symm.trans hi')
    cases hw
    refine ⟨_, List.mem_append_right _ (List.mem_singleton_self _), d.withStatus .inProgress, ?_, rfl⟩
    rw [Store.get_putOrder hd (d.withStatus_id _), if_pos rfl]
    rfl
  | offer hi' hf he hw =>
    obtain rfl := Option.some.inj (hi.symm.trans hi')
    cases hw

theorem begun_step (hb : Begun o w) (h : w.step a = some w') : Begun o w' := by
  refine ⟨fun st hst d hd hs d' hd' => taken_step hb h hst hd hs hd', fun f hc => ?_,
    fun t' ht' paid f hc hpc => ?_⟩
  · cases moves_of_step h with
    | accept =>
      rcases mem_calls_start.mp hc with hc | hc
      · exact hb.cancels f hc
      · cases hc
    | cancel hk ho hs =>
      rcases mem_calls_start.mp hc with hc | hc
      · exact hb.cancels f hc
      · cases hc
        exact ⟨_, hk, _, ho, hs⟩
    | order =>
      refine shown_step h (hb.cancels f ?_)
      simpa [World.wroteOrder] using hc
    | offer =>
      refine shown_step h (hb.cancels f ?_)
      simpa [World.wroteOffer] using hc
    | deliver => exact shown_step h (hb.cancels f hc)
  · rcases pool_step h ht' with ht | h0 | ⟨i, t, rfl, ht, rfl⟩
    · exact shown_step h (hb.accepts t' ht paid f hc hpc)
    · exact absurd h0 hpc.ne'
    · rcases Nat.eq_zero_or_pos t.pc with h0 | hpos
      · exact shown_of_accept h ht hc h0
      · exact shown_step h (hb.accepts t (List.mem_of_getElem? ht) paid f hc hpos)

/-! ## The log -/

theorem log_step (h : w.step a = some w') :
    w'.log o = w.log o ∧ w'.store.orders.get o = w.store.orders.get o ∨
      ∃ (i : ℕ) (t : Thread Call) (d d' : OrderModel), w.pool[i]? = some t ∧ w.store.orders.get o = some d ∧
        w'.store.orders.get o = some d' ∧ OrderWrite o t d d' ∧ w'.pool = adv w.pool i ∧
          w'.log o = w.log o ++ [(d, d')] := by
  rcases order_step h o with ho | ⟨i, t, d, d', -, hi, hd, hd', hw, rfl⟩
  · cases moves_of_step h with
    | accept => exact Or.inl ⟨rfl, ho⟩
    | cancel => exact Or.inl ⟨rfl, ho⟩
    | offer => exact Or.inl ⟨rfl, ho⟩
    | deliver => exact Or.inl ⟨rfl, ho⟩
    | @order i t o' d d' hi hd hw =>
      by_cases hoo : o' = o
      · subst hoo
        have hd' : (w.wroteOrder i o' d d').store.orders.get o' = some d' := by
          rw [World.wroteOrder, Store.get_putOrder hd hw.id, if_pos rfl]
        refine Or.inr ⟨i, t, d, d', hi, hd, hd', hw, rfl, ?_⟩
        simp [World.log, World.wroteOrder]
      · refine Or.inl ⟨?_, ho⟩
        simp [World.log, World.wroteOrder, hoo]
  · refine Or.inr ⟨i, t, d, d', hi, hd, hd', hw, rfl, ?_⟩
    simp [World.log, World.wroteOrder]

theorem change_mono (h : w.step a = some w') {d d' : OrderModel} (hc : w.Change o d d') : w'.Change o d d' := by
  cases hc with
  | accept => exact .accept d
  | name hc ht => exact .name (calls_step h hc) ht
  | cancel ht => exact .cancel ht

theorem change_of_write (hb : Begun o w) {i : ℕ} {t : Thread Call} {d d' : OrderModel} (hi : w.pool[i]? = some t)
    (hd : w.store.orders.get o = some d) (hw : OrderWrite o t d d') : w.Change o d d' := by
  have ht := taken_of_write hb hi hd hw
  cases hw with
  | acceptStatus => exact .accept d
  | acceptOffer paid f => exact .name (List.mem_map_of_mem (List.mem_of_getElem? hi)) (ht.elim Or.inl id)
  | cancelStatus f => exact .cancel (ht.resolve_left (by simp))

structure Logged (o : String) (d₀ : OrderModel) (w : World) : Prop where
  path : ∃ d, w.store.orders.get o = some d ∧ IsPath d₀ (w.log o) d
  changes : ∀ e ∈ w.log o, w.Change o e.1 e.2

theorem logged_step {d₀ : OrderModel} (hb : Begun o w) (hl : Logged o d₀ w) (h : w.step a = some w') :
    Logged o d₀ w' := by
  obtain ⟨d, hd, hpath⟩ := hl.path
  rcases log_step h with ⟨hlog, ho⟩ | ⟨i, t, d₁, d₂, hi, hd₁, hd₂, hw, -, hlog⟩
  · refine ⟨⟨d, ho.trans hd, hlog ▸ hpath⟩, fun e he => ?_⟩
    exact change_mono h (hl.changes e (hlog ▸ he))
  · obtain rfl := Option.some.inj (hd.symm.trans hd₁)
    refine ⟨⟨d₂, hd₂, hlog ▸ Paths.isPath_snoc.mpr ⟨hpath, rfl⟩⟩, fun e he => ?_⟩
    rcases List.mem_append.mp (hlog ▸ he) with he | he
    · exact change_mono h (hl.changes e he)
    · obtain rfl := List.mem_singleton.mp he
      exact change_mono h (change_of_write hb hi hd hw)

end

/-- In every run the update events of an order lead from its first document to
its current one, and each of them begins an acceptance, names the offer of a
call of `acceptOffer` in an order that is taken, or cancels an order that is. -/
theorem order_history {st : Store} {o : String} {d₀ : OrderModel} (hd₀ : st.orders.get o = some d₀)
    {as : List Act} {w : World} (h : Runs.run World.step (.init st) as = some w) :
    (∃ d, w.store.orders.get o = some d ∧ IsPath d₀ (w.log o) d) ∧ ∀ e ∈ w.log o, w.Change o e.1 e.2 := by
  have hinit : Begun o (.init st) ∧ Logged o d₀ (.init st) :=
    ⟨begun_init o st, ⟨d₀, hd₀, rfl⟩, fun e he => nomatch he⟩
  have hinv : Begun o w ∧ Logged o d₀ w := by
    refine Runs.inv_run_free (I := fun w => Begun o w ∧ Logged o d₀ w) (fun w a w' hi hs => ?_) hinit h
    exact ⟨begun_step hi.1 hs, logged_step hi.1 hi.2 hs⟩
  exact ⟨hinv.2.path, hinv.2.changes⟩

theorem demo_history : ∃ w, Runs.run World.step (.init demoStore) demoPayAndCancel = some w ∧
    (∃ d, w.store.orders.get "o" = some d ∧ IsPath demoOrder (w.log "o") d) ∧
      ∀ e ∈ w.log "o", w.Change "o" e.1 e.2 := by
  have h : (Runs.run World.step (.init demoStore) demoPayAndCancel).isSome := by decide +kernel
  obtain ⟨w, hw⟩ := Option.isSome_iff_exists.mp h
  exact ⟨w, hw, order_history (by decide : demoStore.orders.get "o" = some demoOrder) hw⟩

end Sayaaratukcom
