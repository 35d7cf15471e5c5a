import Sayaaratukcom.Notifications

/-!
# Whether a cancellation is final

No write looks at the status it replaces, so a call of `acceptOffer` that is
under way when the order is cancelled, or begins on a page from before, goes
on as if nothing had happened, and `notifyOnOfferAccepted` looks at the offer
only. A cancellation is final when there is no such call, and no acceptance
whose provider is still to be told.
-/

namespace Sayaaratukcom

open Threads (Thread adv)

def liveAccept (o : String) (t : Thread Call) : Prop :=
  match t.call with
  | .accept _ o' _ => o' = o ∧ t.Live Call.writes
  | .cancel _ _ => False

instance (o : String) (t : Thread Call) : Decidable (liveAccept o t) :=
  match t with
  | ⟨.accept _ _ _, _⟩ => instDecidableAnd
  | ⟨.cancel _ _, _⟩ => .isFalse id

theorem liveAccept_accept {o o' f : String} {paid : Bool} {n : ℕ} :
    liveAccept o ⟨.accept paid o' f, n⟩ ↔ o' = o ∧ n < 3 := Iff.rfl

namespace PushState

/-- No `acceptOffer` on the order has writes to make, and every acceptance of an
offer of the order has been delivered. -/
def Idle (s : PushState) (o : String) : Prop :=
  (∀ t ∈ s.world.pool, ¬ liveAccept o t) ∧ ∀ i < s.updates.length, ∀ u ∈ s.updates[i]?,
    u.accepts → u.before.orderId = o → i ∈ s.pushes.map Push.event

instance (s : PushState) (o : String) : Decidable (s.Idle o) := instDecidableAnd

def CancelsAlone (s : PushState) : Thread Call → Prop
  | ⟨.cancel o _, 0⟩ => s.Idle o
  | _ => True

instance (s : PushState) : ∀ t, Decidable (s.CancelsAlone t)
  | ⟨.cancel o _, 0⟩ => inferInstanceAs (Decidable (s.Idle o))
  | ⟨.cancel _ _, _ + 1⟩ => .isTrue trivial
  | ⟨.accept _ _ _, _⟩ => .isTrue trivial

/-- `acceptOffer` is called only while the order is not cancelled, and
`cancelOrder` begins only while the order is idle. -/
def Timely (s : PushState) : PushAct → Prop
  | .world (.accept _ _ o _) => ∀ d ∈ s.world.store.orders.get o, d.status ≠ .cancelled
  | .world (.write i) => ∀ t ∈ s.world.pool[i]?, s.CancelsAlone t
  | .world (.cancel _ _) | .world (.deliver _ _) | .fail _ | .provider _ _ | .notify _ => True

instance (s : PushState) : ∀ b, Decidable (s.Timely b)
  | .world (.accept _ _ o _) =>
    inferInstanceAs (Decidable (∀ d ∈ s.world.store.orders.get o, d.status ≠ .cancelled))
  | .world (.write i) => inferInstanceAs (Decidable (∀ t ∈ s.world.pool[i]?, s.CancelsAlone t))
  | .world (.cancel _ _) | .world (.deliver _ _) | .fail _ | .provider _ _ | .notify _ => .isTrue trivial

def writer (s : PushState) : PushAct → Option (Thread Call)
  | .world a => s.world.writer a
  | .fail _ | .provider _ _ | .notify _ => none

def delivery (s : PushState) : PushAct → Option OfferUpdate
  | .notify i => s.updates[i]?
  | .world _ | .fail _ | .provider _ _ => none

/-- A step from a state where the order is cancelled: the order stays so, no
offer of it is set to accepted, and no provider of it is sent a message. -/
def Final (s : PushState) (b : PushAct) (s' : PushState) : Prop :=
  ∀ o, ∀ d ∈ s.world.store.orders.get o, d.status = .cancelled →
    (∃ d' ∈ s'.world.store.orders.get o, d'.status = .cancelled) ∧
    (∀ t ∈ s.writer b, ∀ f, t.next Call.writes = some (.offerStatus f .accepted) →
      ∀ e ∈ s.world.store.offers.get f, e.orderId ≠ o) ∧
    ∀ u ∈ s.delivery b, u.before.orderId = o → notifyOnOfferAccepted u s.view = none

def CancelledIdle (s : PushState) : Prop :=
  ∀ o, ∀ d ∈ s.world.store.orders.get o, d.status = .cancelled → s.Idle o

end PushState

/-! ## What is left of the calls -/

section
variable {w w' : World} {a : Act} {i : ℕ} {t : Thread Call} {o : String}

theorem live_of_liveAccept (h : liveAccept o t) : t.Live Call.writes := by
  obtain ⟨c, n⟩ := t
  cases c with
  | accept => exact h.2
  | cancel => exact h.elim

theorem liveAccept_of_bump (h : liveAccept o t.bump) : liveAccept o t := by
  obtain ⟨c, n⟩ := t
  cases c with
  | accept paid o' f => exact ⟨h.1, Nat.lt_of_succ_lt h.2⟩
  | cancel o' f => exact h

variable (halone : ∀ t ∈ w.pool, ¬ liveAccept o t)
include halone

theorem not_liveAccept_adv (hi : w.pool[i]? = some t) : ∀ t' ∈ adv w.pool i, ¬ liveAccept o t' := by
  intro t' ht' hl
  rcases Threads.mem_adv hi ht' with rfl | ht'
  · exact halone t (List.mem_of_getElem? hi) (liveAccept_of_bump hl)
  · exact halone t' ht' hl

theorem not_liveAccept_step (h : w.step a = some w') (ha : ∀ k j f, a ≠ .accept k j o f) :
    ∀ t' ∈ w'.pool, ¬ liveAccept o t' := by
  intro t' ht' hl
  cases moves_of_step h with
  | accept =>
    rcases List.mem_append.mp ht' with ht' | ht'
    · exact halone t' ht' hl
    · obtain rfl := List.mem_singleton.mp ht'
      obtain ⟨rfl, -⟩ := hl
      exact ha _ _ _ rfl
  | cancel =>
    rcases List.mem_append.mp ht' with ht' | ht'
    · exact halone t' ht' hl
    · obtain rfl := List.mem_singleton.mp ht'
      exact hl
  | deliver => exact halone t' ht' hl
  | offer hi => exact not_liveAccept_adv halone hi t' ht' hl
  | order hi => exact not_liveAccept_adv halone hi t' ht' hl

theorem not_liveAccept_failed (i : ℕ) : ∀ t' ∈ (w.failed i).pool, ¬ liveAccept o t' := by
  intro t' ht' hl
  rcases Threads.mem_halt ht' with hn | ht'
  · exact hn (live_of_liveAccept hl)
  · exact halone t' ht' hl

theorem not_accept {paid : Bool} {f : String} {n : ℕ} (hn : n < 3) :
    w.pool[i]? ≠ some ⟨.accept paid o f, n⟩ :=
  fun hi => halone _ (List.mem_of_getElem? hi) (liveAccept_accept.mpr ⟨rfl, hn⟩)

theorem cancelled_step (h : w.step a = some w') {d : OrderModel} (hd : w.store.orders.get o = some d)
    (hs : d.status = .cancelled) : ∃ d' ∈ w'.store.orders.get o, d'.status = .cancelled := by
  rcases order_step h o with ho | ⟨i, t, d₁, d₂, -, hi, hd₁, hd₂, hw, -⟩
  · exact ⟨d, ho ▸ hd, hs⟩
  · refine ⟨d₂, hd₂, ?_⟩
    cases hw with
    | acceptStatus paid f => exact absurd hi (not_accept halone (by decide))
    | acceptOffer paid f => exact absurd hi (not_accept halone (by decide))
    | cancelStatus f => rfl

theorem orderId_ne_of_next {st₀ : Store} (han : Anchored st₀ w) (hi : w.pool[i]? = some t) {f : String}
    (hf : t.next Call.writes = some (.offerStatus f .accepted)) {e : OfferModel}
    (he : w.store.offers.get f = some e) : e.orderId ≠ o := by
  intro h
  subst h
  obtain ⟨c, n⟩ := t
  cases c with
  | accept paid o' g =>
    match n with
    | 0 => cases hf
    | 1 => cases hf
    | 2 =>
      cases hf
      obtain rfl := orderId_of_accept han hi he
      exact not_accept halone (by decide) hi
    | _ + 3 => cases hf
  | cancel o' g =>
    match n with
    | 0 => cases hf
    | 1 => cases hf
    | _ + 2 => cases hf

end

/-! ## What is left to deliver -/

namespace PushState

section
variable {st₀ : Store} {s s' : PushState} {b : PushAct} {o : String}

theorem idle_world (han : Anchored st₀ s.world) (hq : s.Idle o) {a : Act} (ha : ∀ k j f, a ≠ .accept k j o f)
    {w' : World} (h : s.world.step a = some w') :
    Idle { s with world := w', updates := s.updates ++ s.world.offerUpdates a w' } o := by
  refine ⟨not_liveAccept_step hq.1 h ha, fun i hlt u hu hacc ho => ?_⟩
  by_cases hi : i < s.updates.length
  · exact hq.2 i hi u (by rwa [List.getElem?_append_left hi] at hu) hacc ho
  · rw [Option.mem_def, List.getElem?_append_right (Nat.le_of_not_lt hi)] at hu
    have hmem := List.mem_of_getElem? hu
    -- the update is new: it would be an acceptance by a call on the order
    rcases offers_step h with ⟨hus, -⟩ | ⟨j, t, f, e, e', ht, hw, he, hus, -⟩
    · rw [hus] at hmem
      cases hmem
    · rw [hus] at hmem
      obtain rfl := List.mem_singleton.mp hmem
      cases hw with
      | accept => exact absurd ho (orderId_ne_of_next hq.1 han ht rfl he)
      | cancel => cases hacc.2

theorem idle_notify (hq : s.Idle o) (p : Push) : Idle { s with pushes := s.pushes ++ [p] } o := by
  refine ⟨hq.1, fun i hi u hu hacc ho => ?_⟩
  rw [List.map_append]
  exact List.mem_append_left _ (hq.2 i hi u hu hacc ho)

theorem cancelledIdle_world (han : Anchored st₀ s.world) (hi : s.CancelledIdle) {a : Act}
    (hc : s.Timely (.world a)) {w' : World} (h : s.world.step a = some w') :
    CancelledIdle { s with world := w', updates := s.updates ++ s.world.offerUpdates a w' } := by
  intro o d hd hs
  rcases order_step h o with ho | ⟨i, t, d₁, d₂, rfl, ht, hd₁, hd₂, hw, -⟩
  · replace hd : s.world.store.orders.get o = some d := ho ▸ hd
    refine idle_world han (hi o d hd hs) (fun k j f ha => ?_) h
    subst ha
    exact hc d hd hs
  · obtain rfl := Option.some.inj (hd₂.symm.trans hd)
    refine idle_world han ?_ (fun k j f ha => by cases ha) h
    cases hw with
    | acceptStatus => cases hs
    | acceptOffer => exact hi o d₁ hd₁ hs
    | cancelStatus => exact hc _ ht

theorem cancelledIdle_step (han : Anchored st₀ s.world) (hi : s.CancelledIdle) (hc : s.Timely b)
    (h : s.step b = some s') : s'.CancelledIdle := by
  cases b with
  | world a =>
    obtain ⟨w', hw, rfl⟩ := Option.map_eq_some_iff.mp h
    exact cancelledIdle_world han hi hc hw
  | fail i =>
    obtain ⟨wr, -, rfl⟩ := Option.map_eq_some_iff.mp h
    intro o d hd hs
    obtain ⟨halone, htold⟩ := hi o d hd hs
    exact ⟨not_liveAccept_failed halone i, htold⟩
  | provider uid doc =>
    obtain rfl := Option.some.inj h
    exact hi
  | notify i =>
    simp only [step] at h
    split at h
    · cases h
    · split at h
      · obtain rfl := Option.some.inj h
        exact fun o d hd hs => idle_notify (hi o d hd hs) _
      · cases h

theorem final_step (han : Anchored st₀ s.world) (hi : s.CancelledIdle) (h : s.step b = some s') :
    s.Final b s' := by
  intro o d hd hs
  obtain ⟨halone, htold⟩ := hi o d hd hs
  cases b with
  | world a =>
    obtain ⟨w', hw, rfl⟩ := Option.map_eq_some_iff.mp h
    refine ⟨cancelled_step halone hw hd hs, fun t ht f hf e he => ?_, by rintro u ⟨⟩⟩
    cases a with
    | write i => exact orderId_ne_of_next halone han ht hf he
    | accept => cases ht
    | cancel => cases ht
    | deliver => cases ht
  | fail i =>
    obtain ⟨wr, -, rfl⟩ := Option.map_eq_some_iff.mp h
    exact ⟨⟨d, hd, hs⟩, by rintro t ⟨⟩, by rintro u ⟨⟩⟩
  | provider uid doc =>
    obtain rfl := Option.some.inj h
    exact ⟨⟨d, hd, hs⟩, by rintro t ⟨⟩, by rintro u ⟨⟩⟩
  | notify i =>
    simp only [step] at h
    split at h
    · cases h
    · rename_i hn
      split at h
      · rename_i u hu
        obtain rfl := Option.some.inj h
        refine ⟨⟨d, hd, hs⟩, by rintro t ⟨⟩, fun u' hu' ho => ?_⟩
        obtain rfl := Option.some.inj (hu.symm.trans hu')
        by_cases hacc : u.accepts
        · exact absurd (htold i (List.getElem?_eq_some_iff.mp hu).1 u hu hacc ho) hn
        · exact if_neg hacc
      · cases h

end

/-- A cancellation is final in every run in which `acceptOffer` is called only
while its order is not cancelled, and `cancelOrder` begins only while no
`acceptOffer` on its order has writes to make and no acceptance of its offers is
still to be delivered. -/
theorem cancellation_final {st : Store} {bs : List PushAct} (hc : Runs.Meets step Timely (init st) bs) :
    Runs.AllSteps step Final (init st) bs := by
  have hinit : CancelledIdle (init st) :=
    fun o d hd hs => ⟨fun t ht => (nomatch ht), fun i hi => absurd hi (Nat.not_lt_zero i)⟩
  refine Runs.allSteps_of_inv (I := fun s => Inv st s ∧ s.CancelledIdle) ?_ ?_ ⟨inv_init st, hinit⟩ hc
  · intro s b s' hi hcb h
    exact ⟨inv_step hi.1 h, cancelledIdle_step hi.1.anchored hi.2 hcb h⟩
  · intro s b s' hi _ h
    exact final_step hi.1.anchored hi.2 h

/-- Offer `a` is accepted and its provider told; a second tap fails at its first
write, and the order is cancelled after it. -/
def demoIdleCancel : List PushAct :=
  [.world (.accept 0 0 "o" "a"), .world (.write 0), .world (.write 0), .world (.write 0), .notify 0,
   .world (.accept 0 0 "o" "a"), .fail 1, .world (.cancel 3 "o"), .world (.write 2), .world (.write 2),
   .world (.deliver 2 9), .notify 1]

theorem demo_cancellation_final : (Runs.run step (init demoTokenStore) demoIdleCancel).isSome ∧
    Runs.AllSteps step Final (init demoTokenStore) demoIdleCancel :=
  ⟨by decide +kernel, cancellation_final (by decide +kernel)⟩

/-- A `PaymentPage` opened before the cancellation reports `paid` after it: the
order is in progress again. -/
theorem paid_after_cancel :
    ¬ Runs.AllSteps step Final (init demoStore)
      ((demoPayAndCancel ++ [Act.accept 0 0 "o" "b"]).map PushAct.world ++ [.world (.write 2)]) := by
  intro hall
  have h : (Runs.run step (init demoStore) ((demoPayAndCancel ++ [Act.accept 0 0 "o" "b"]).map PushAct.world)).bind
      (fun s => (s.step (.world (.write 2))).map fun s' =>
        decide (∃ d ∈ s.world.store.orders.get "o", d.status = .cancelled ∧
          ∀ d' ∈ s'.world.store.orders.get "o", d'.status = .inProgress)) = some true := by decide +kernel
  obtain ⟨s, hr, h⟩ := Option.bind_eq_some_iff.mp h
  obtain ⟨s', hs, h⟩ := Option.map_eq_some_iff.mp h
  obtain ⟨d, hd, hst, hd'⟩ := of_decide_eq_true h
  obtain ⟨-, hlast⟩ := Runs.allSteps_append step hr hall
  obtain ⟨hfinal, -⟩ := (Runs.allSteps_cons step hs).mp hlast
  obtain ⟨⟨d₁, hd₁, hst₁⟩, -⟩ := hfinal "o" d hd hst
  rw [hd' d₁ hd₁] at hst₁
  cases hst₁

end PushState

end Sayaaratukcom
