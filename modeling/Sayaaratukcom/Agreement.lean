import Sayaaratukcom.Terms

/-!
# Orders agree with their offers

Every call writes the order and its offers one after the other. Between these
writes the two collections may disagree; what carries the agreement over them
is a phase for each order: it serves the one offer that its calls accept, or
it is idle and its accepted offers are about to be unmarked.
-/

namespace Sayaaratukcom

open Threads (Thread adv)

def midAccept (o : String) (t : Thread Call) : Option String :=
  match t.call with
  | .accept _ o' f => if o' = o ∧ t.Midway Call.writes then some f else none
  | .cancel _ _ => none

def unmarks (t : Thread Call) : Option String :=
  match t.call with
  | .accept _ _ _ => none
  | .cancel _ f => if t.Midway Call.writes then some f else none

def World.Unmarking (w : World) (f : String) : Prop := ∃ t ∈ w.pool, unmarks t = some f

instance (w : World) (f : String) : Decidable (w.Unmarking f) :=
  inferInstanceAs (Decidable (∃ t ∈ w.pool, unmarks t = some f))

def Store.AcceptedOf (st : Store) (o f : String) : Prop :=
  ∃ e ∈ st.offers.get f, e.orderId = o ∧ e.status = .accepted

instance (st : Store) (o f : String) : Decidable (st.AcceptedOf o f) :=
  inferInstanceAs (Decidable (∃ e ∈ st.offers.get f, e.orderId = o ∧ e.status = .accepted))

def Call.acceptedOffer (o : String) : Call → Option String
  | .accept _ o' f => if o' = o then some f else none
  | .cancel _ _ => none

def World.calledOffers (w : World) (o : String) : List String :=
  (w.pool.map Thread.call).filterMap (Call.acceptedOffer o)

/-- The accepted offers of the order are `f` and offers about to be unmarked. -/
def World.OnlyAccepts (w : World) (o f : String) : Prop :=
  ∀ g ∈ w.calledOffers o, w.store.AcceptedOf o g → g = f ∨ w.Unmarking g

instance (w : World) (o f : String) : Decidable (w.OnlyAccepts o f) :=
  inferInstanceAs (Decidable (∀ g ∈ w.calledOffers o, w.store.AcceptedOf o g → g = f ∨ w.Unmarking g))

/-- The next write of the call crosses no other call: `acceptOffer` begins when
no other offer is accepted or half-way so, and accepts an offer that no
half-way `cancelOrder` is about to mark; `cancelOrder` begins when no
`acceptOffer` is half-way and no offer is accepted but its own, which is one of
the order's. -/
def World.Uncrossed (w : World) : Thread Call → Prop
  | ⟨.accept _ o f, 0⟩ => (∀ t ∈ w.pool, ∀ f' ∈ midAccept o t, f' = f) ∧ w.OnlyAccepts o f
  | ⟨.accept _ _ f, 2⟩ => ¬ w.Unmarking f
  | ⟨.cancel o f, 0⟩ =>
    (∀ t ∈ w.pool, midAccept o t = none) ∧ w.OnlyAccepts o f ∧ ∀ e ∈ w.store.offers.get f, e.orderId = o
  | _ => True

instance (w : World) : ∀ t, Decidable (w.Uncrossed t)
  | ⟨.accept _ _ _, 0⟩ => instDecidableAnd
  | ⟨.accept _ _ _, 1⟩ => .isTrue trivial
  | ⟨.accept _ _ _, 2⟩ => instDecidableNot
  | ⟨.accept _ _ _, _ + 3⟩ => .isTrue trivial
  | ⟨.cancel _ _, 0⟩ => instDecidableAnd
  | ⟨.cancel _ _, _ + 1⟩ => .isTrue trivial

def World.writer (w : World) : Act → Option (Thread Call)
  | .write i => w.pool[i]?
  | .accept _ _ _ _ | .cancel _ _ | .deliver _ _ => none

def Orderly (w : World) (a : Act) : Prop := ∀ t ∈ w.writer a, w.Uncrossed t

instance (w : World) (a : Act) : Decidable (Orderly w a) :=
  inferInstanceAs (Decidable (∀ t ∈ w.writer a, w.Uncrossed t))

/-! ## Half-way calls -/

section
variable {o : String}

@[simp] theorem midAccept_zero (c : Call) : midAccept o ⟨c, 0⟩ = none := by
  cases c <;> simp [midAccept, Thread.Midway]

@[simp] theorem midAccept_cancel (o' f : String) (n : ℕ) : midAccept o ⟨.cancel o' f, n⟩ = none := rfl

theorem midAccept_accept (paid : Bool) (o' f : String) (n : ℕ) :
    midAccept o ⟨.accept paid o' f, n⟩ = if o' = o ∧ 0 < n ∧ n < 3 then some f else none := rfl

@[simp] theorem unmarks_zero (c : Call) : unmarks ⟨c, 0⟩ = none := by
  cases c <;> simp [unmarks, Thread.Midway]

@[simp] theorem unmarks_accept (paid : Bool) (o' f : String) (n : ℕ) : unmarks ⟨.accept paid o' f, n⟩ = none := rfl

theorem unmarks_cancel (o' f : String) (n : ℕ) :
    unmarks ⟨.cancel o' f, n⟩ = if 0 < n ∧ n < 2 then some f else none := rfl

theorem midAccept_of_not_midway {t : Thread Call} (h : ¬ t.Midway Call.writes) : midAccept o t = none := by
  unfold midAccept
  split
  · exact if_neg fun hm => h hm.2
  · rfl

theorem unmarks_of_not_midway {t : Thread Call} (h : ¬ t.Midway Call.writes) : unmarks t = none := by
  unfold unmarks
  split
  · rfl
  · exact if_neg h

end

/-! ## The phases of an order -/

section
variable (w : World) (o : String) (d : OrderModel)

/-- The order is in progress. The calls that are half-way accept `f`, and if
there are none, `f` is accepted and named in the order. -/
structure Serving (f : String) : Prop where
  status : d.status = .inProgress
  mid : ∀ t ∈ w.pool, ∀ f' ∈ midAccept o t, f' = f ∧ (t.pc = 2 → d.offerId = f)
  accepted : ∀ g, w.store.AcceptedOf o g → g = f ∨ w.Unmarking g
  done : (∃ t ∈ w.pool, midAccept o t = some f) ∨ d.offerId = f ∧ w.store.AcceptedOf o f ∧ ¬ w.Unmarking f

structure Idle : Prop where
  status : d.status ≠ .inProgress
  mid : ∀ t ∈ w.pool, midAccept o t = none
  accepted : ∀ g, w.store.AcceptedOf o g → w.Unmarking g

end

/-- Every accepted offer is one that a call accepts, and the order is in one of
its phases. -/
structure Agree (o : String) (w : World) : Prop where
  called : ∀ g, w.store.AcceptedOf o g → g ∈ w.calledOffers o
  phase : ∀ d ∈ w.store.orders.get o, (∃ f, Serving w o d f) ∨ Idle w o d

theorem accepted_putOffer {st : Store} {f : String} {e : OfferModel} (he : st.offers.get f = some e)
    (s : OfferStatus) (o g : String) : (st.putOffer (e.withStatus s)).AcceptedOf o g ↔
      if g = f then e.orderId = o ∧ s = .accepted else st.AcceptedOf o g := by
  rw [Store.AcceptedOf, Store.get_putOffer he (e.withStatus_offerId s)]
  split
  · simp
  · rfl

/-- A step that leaves the order, its accepted offers and the half-way calls
about them as they are leaves its phase. -/
theorem phase_frame {w w' : World} {o : String} {d : OrderModel}
    (hm : ∀ t ∈ w'.pool, midAccept o t ≠ none → t ∈ w.pool)
    (hm' : ∀ t ∈ w.pool, midAccept o t ≠ none → t ∈ w'.pool)
    (ha : ∀ g, w'.store.AcceptedOf o g ↔ w.store.AcceptedOf o g)
    (hu : ∀ g, w.store.AcceptedOf o g → (w'.Unmarking g ↔ w.Unmarking g))
    (h : (∃ f, Serving w o d f) ∨ Idle w o d) : (∃ f, Serving w' o d f) ∨ Idle w' o d := by
  rcases h with ⟨f, hs⟩ | hi
  · refine Or.inl ⟨f, hs.status, fun t ht f' hf' => ?_, fun g hg => ?_, ?_⟩
    · exact hs.mid t (hm t ht (by rw [hf']; simp)) f' hf'
    · have hg' := (ha g).mp hg
      rw [hu g hg']
      exact hs.accepted g hg'
    · rcases hs.done with ⟨t, ht, hf⟩ | ⟨hd, hacc, hn⟩
      · exact Or.inl ⟨t, hm' t ht (by rw [hf]; simp), hf⟩
      · exact Or.inr ⟨hd, (ha f).mpr hacc, by rw [hu f hacc]; exact hn⟩
  · refine Or.inr ⟨hi.status, fun t ht => ?_, fun g hg => ?_⟩
    · by_contra hne
      exact hne (hi.mid t (hm t ht hne))
    · have hg' := (ha g).mp hg
      rw [hu g hg']
      exact hi.accepted g hg'

theorem phase_start {w : World} {o : String} {d : OrderModel} (c : Call)
    (h : (∃ f, Serving w o d f) ∨ Idle w o d) : (∃ f, Serving (w.start c) o d f) ∨ Idle (w.start c) o d := by
  refine phase_frame (w := w) (fun t ht hn => ?_) (fun t ht _ => List.mem_append_left _ ht) (fun g => Iff.rfl)
    (fun g _ => ?_) h
  · rcases List.mem_append.mp ht with ht | ht
    · exact ht
    · rw [List.mem_singleton.mp ht, midAccept_zero] at hn
      exact absurd rfl hn
  · simp [World.Unmarking, World.start, or_and_right, exists_or]

/-! ## The writes to an order -/

section
variable {w : World} {i : ℕ} {o f : String} {d : OrderModel}

theorem onlyAccepts_of_orderly (hc : w.OnlyAccepts o f) (ha : Agree o w) (g : String)
    (hg : w.store.AcceptedOf o g) : g = f ∨ w.Unmarking g := hc g (ha.called g hg) hg

theorem phase_acceptStatus {paid : Bool} (hi : w.pool[i]? = some ⟨.accept paid o f, 0⟩)
    (hd : w.store.orders.get o = some d) (hc : w.Uncrossed ⟨.accept paid o f, 0⟩) (ha : Agree o w) :
    Serving (w.wroteOrder i o d (d.withStatus .inProgress)) o (d.withStatus .inProgress) f := by
  obtain ⟨hmid, hacc⟩ := hc
  have hbump : midAccept o (⟨.accept paid o f, 0⟩ : Thread Call).bump = some f := by
    simp [midAccept_accept, Thread.bump]
  refine ⟨rfl, fun t ht f' hf' => ?_, fun g hg => ?_, Or.inl ⟨_, Threads.bump_mem_adv hi, hbump⟩⟩
  · rcases Threads.mem_adv hi ht with rfl | ht
    · exact ⟨Option.some.inj (hf'.symm.trans hbump), fun h => nomatch h⟩
    · refine ⟨hmid t ht f' hf', fun h2 => ?_⟩
      rcases ha.phase d hd with ⟨f₀, hs⟩ | hidle
      · exact ((hs.mid t ht f' hf').2 h2).trans ((hs.mid t ht f' hf').1.symm.trans (hmid t ht f' hf'))
      · rw [hidle.mid t ht] at hf'
        cases hf'
  · refine (onlyAccepts_of_orderly hacc ha g hg).imp_right fun hu => ?_
    rcases Threads.exists_of_adv hi hu with hu | hu
    · cases hu
    · exact hu

theorem phase_acceptOffer {paid : Bool} (hi : w.pool[i]? = some ⟨.accept paid o f, 1⟩)
    (hd : w.store.orders.get o = some d) (ha : Agree o w) :
    Serving (w.wroteOrder i o d (d.withOffer f)) o (d.withOffer f) f := by
  have hself : midAccept o (⟨.accept paid o f, 1⟩ : Thread Call) = some f := by simp [midAccept_accept]
  have hbump : midAccept o (⟨.accept paid o f, 1⟩ : Thread Call).bump = some f := by
    simp [midAccept_accept, Thread.bump]
  have hmem := List.mem_of_getElem? hi
  rcases ha.phase d hd with ⟨f₀, hs⟩ | hidle
  · obtain rfl : f = f₀ := (hs.mid _ hmem f hself).1
    refine ⟨hs.status, fun t ht f' hf' => ?_, fun g hg => ?_, Or.inl ⟨_, Threads.bump_mem_adv hi, hbump⟩⟩
    · rcases Threads.mem_adv hi ht with rfl | ht
      · exact ⟨Option.some.inj (hf'.symm.trans hbump), fun _ => rfl⟩
      · exact ⟨(hs.mid t ht f' hf').1, fun _ => rfl⟩
    · refine (hs.accepted g hg).imp_right fun hu => ?_
      rcases Threads.exists_of_adv hi hu with hu | hu
      · cases hu
      · exact hu
  · rw [hidle.mid _ hmem] at hself
    cases hself

theorem phase_cancelStatus (hi : w.pool[i]? = some ⟨.cancel o f, 0⟩)
    (hc : w.Uncrossed ⟨.cancel o f, 0⟩) (ha : Agree o w) :
    Idle (w.wroteOrder i o d (d.withStatus .cancelled)) o (d.withStatus .cancelled) := by
  obtain ⟨hmid, hacc, -⟩ := hc
  refine ⟨by simp, fun t ht => ?_, fun g hg => ?_⟩
  · rcases Threads.mem_adv hi ht with rfl | ht
    · rfl
    · exact hmid t ht
  · rcases onlyAccepts_of_orderly hacc ha g hg with rfl | hu
    · exact ⟨_, Threads.bump_mem_adv hi, by simp [unmarks_cancel, Thread.bump]⟩
    · rcases Threads.exists_of_adv hi hu with hu | hu
      · rw [unmarks_zero] at hu
        cases hu
      · exact hu

theorem phase_otherOrder {o' : String} {t : Thread Call} {d₁ d₂ : OrderModel} (hi : w.pool[i]? = some t)
    (hw : OrderWrite o' t d₁ d₂) (hne : o ≠ o') (hc : w.Uncrossed t)
    (h : (∃ f, Serving w o d f) ∨ Idle w o d) :
    (∃ f, Serving (w.wroteOrder i o' d₁ d₂) o d f) ∨ Idle (w.wroteOrder i o' d₁ d₂) o d := by
  have hnone : midAccept o t = none ∧ midAccept o t.bump = none := by
    cases hw <;> simp [midAccept_accept, Thread.bump, hne.symm]
  have hcancel : ∀ g, w.store.AcceptedOf o g → unmarks t.bump ≠ some g := by
    intro g h hu
    obtain ⟨e, he, ho, -⟩ := h
    -- only a `cancelOrder` of the other order gets half-way here, and its offer is not of this one
    cases hw with
    | acceptStatus => simp [Thread.bump] at hu
    | acceptOffer => simp [Thread.bump] at hu
    | cancelStatus f =>
      have hg : f = g := by simpa [unmarks_cancel, Thread.bump] using hu
      exact hne (ho.symm.trans (hc.2.2 e (hg ▸ he)))
  have hzero : unmarks t = none := by
    cases hw <;> simp
  refine phase_frame (w := w) (fun t' ht' hn => ?_) (fun t' ht' hn => ?_) (fun g => Iff.rfl) (fun g hg => ?_) h
  · rcases Threads.mem_adv hi ht' with rfl | ht'
    · exact absurd hnone.2 hn
    · exact ht'
  · rcases Threads.mem_adv_of_mem hi ht' with rfl | ht'
    · exact absurd hnone.1 hn
    · exact ht'
  · constructor
    · intro hu
      exact (Threads.exists_adv hi hu).resolve_left (hcancel g hg)
    · intro hu
      refine (Threads.exists_of_adv hi hu).resolve_left ?_
      rw [hzero]
      simp

end

/-! ## The writes to an offer -/

section
variable {w : World} {i : ℕ} {o o' f : String} {d : OrderModel} {e : OfferModel}

theorem phase_accept {paid : Bool} (hi : w.pool[i]? = some ⟨.accept paid o f, 2⟩)
    (he : w.store.offers.get f = some e) (ho : e.orderId = o) (hc : w.Uncrossed ⟨.accept paid o f, 2⟩)
    (h : (∃ f, Serving w o d f) ∨ Idle w o d) : Serving (w.wroteOffer i (e.withStatus .accepted)) o d f := by
  have hself : midAccept o (⟨.accept paid o f, 2⟩ : Thread Call) = some f := by simp [midAccept_accept]
  have hbump : midAccept o (⟨.accept paid o f, 2⟩ : Thread Call).bump = none := by
    simp [midAccept_accept, Thread.bump]
  have hmem := List.mem_of_getElem? hi
  rcases h with ⟨f₀, hs⟩ | hidle
  · obtain ⟨rfl, hdf⟩ : f = f₀ ∧ d.offerId = f₀ := (hs.mid _ hmem f hself).imp_right fun h => h rfl
    refine ⟨hs.status, fun t ht f' hf' => ?_, fun g hg => ?_, Or.inr ⟨hdf, ?_, fun hu => ?_⟩⟩
    · rcases Threads.mem_adv hi ht with rfl | ht
      · rw [hbump] at hf'
        cases hf'
      · exact hs.mid t ht f' hf'
    · by_cases hgf : g = f
      · exact Or.inl hgf
      · rw [World.wroteOffer, accepted_putOffer he, if_neg hgf] at hg
        refine (hs.accepted g hg).imp_right fun hu => ?_
        exact (Threads.exists_of_adv hi hu).resolve_left (by simp)
    · rw [World.wroteOffer, accepted_putOffer he, if_pos rfl]
      exact ⟨ho, rfl⟩
    · exact hc ((Threads.exists_adv hi hu).resolve_left (by simp [Thread.bump]))
  · rw [hidle.mid _ hmem] at hself
    cases hself

theorem phase_otherOffer {paid : Bool} (hi : w.pool[i]? = some ⟨.accept paid o' f, 2⟩)
    (he : w.store.offers.get f = some e) (ho : e.orderId = o') (hne : o ≠ o')
    (h : (∃ f, Serving w o d f) ∨ Idle w o d) :
    (∃ f, Serving (w.wroteOffer i (e.withStatus .accepted)) o d f) ∨
      Idle (w.wroteOffer i (e.withStatus .accepted)) o d := by
  have hnone : ∀ n, midAccept o (⟨.accept paid o' f, n⟩ : Thread Call) = none := by
    intro n
    simp [midAccept_accept, hne.symm]
  refine phase_frame (w := w) (fun t' ht' hn => ?_) (fun t' ht' hn => ?_) (fun g => ?_) (fun g _ => ?_) h
  · rcases Threads.mem_adv hi ht' with rfl | ht'
    · exact absurd (hnone _) hn
    · exact ht'
  · rcases Threads.mem_adv_of_mem hi ht' with rfl | ht'
    · exact absurd (hnone _) hn
    · exact ht'
  · rw [World.wroteOffer, accepted_putOffer he]
    split
    · rename_i hg
      subst hg
      refine iff_of_false (fun h => hne (h.1.symm.trans ho)) ?_
      intro h
      obtain ⟨e', he', ho', -⟩ := h
      obtain rfl := Option.some.inj (he.symm.trans he')
      exact hne (ho'.symm.trans ho)
    · rfl
  · constructor
    · exact fun hu => (Threads.exists_adv hi hu).resolve_left (by simp [Thread.bump])
    · exact fun hu => (Threads.exists_of_adv hi hu).resolve_left (by simp)

theorem phase_unmark (hi : w.pool[i]? = some ⟨.cancel o' f, 1⟩) (he : w.store.offers.get f = some e)
    (h : (∃ f, Serving w o d f) ∨ Idle w o d) :
    (∃ f, Serving (w.wroteOffer i (e.withStatus .orderCancelled)) o d f) ∨
      Idle (w.wroteOffer i (e.withStatus .orderCancelled)) o d := by
  have hself : unmarks (⟨.cancel o' f, 1⟩ : Thread Call) = some f := by simp [unmarks_cancel]
  have hacc : ∀ g, (w.wroteOffer i (e.withStatus .orderCancelled)).store.AcceptedOf o g →
      g ≠ f ∧ w.store.AcceptedOf o g := by
    intro g hg
    rw [World.wroteOffer, accepted_putOffer he] at hg
    split at hg
    · cases hg.2
    · rename_i hgf
      exact ⟨hgf, hg⟩
  have hkeep : ∀ g, g ≠ f → w.Unmarking g → (w.wroteOffer i (e.withStatus .orderCancelled)).Unmarking g := by
    intro g hgf hu
    refine (Threads.exists_of_adv hi hu).resolve_left fun hu => hgf ?_
    exact Option.some.inj (hu.symm.trans hself)
  have hmid : ∀ t ∈ (w.wroteOffer i (e.withStatus .orderCancelled)).pool, t ∈ w.pool ∨ midAccept o t = none := by
    intro t ht
    rcases Threads.mem_adv hi ht with rfl | ht
    · exact Or.inr rfl
    · exact Or.inl ht
  rcases h with ⟨f₀, hs⟩ | hidle
  · refine Or.inl ⟨f₀, hs.status, fun t ht f' hf' => ?_, fun g hg => ?_, ?_⟩
    · rcases hmid t ht with ht | hn
      · exact hs.mid t ht f' hf'
      · rw [hn] at hf'
        cases hf'
    · obtain ⟨hgf, hg⟩ := hacc g hg
      exact (hs.accepted g hg).imp_right (hkeep g hgf)
    · rcases hs.done with hm | ⟨hdf, haf, hn⟩
      · exact Or.inl ((Threads.exists_of_adv hi hm).resolve_left (by simp))
      · -- the offer served is not the one marked
        have hne : f₀ ≠ f := by
          intro h
          subst h
          exact hn ⟨_, List.mem_of_getElem? hi, hself⟩
        refine Or.inr ⟨hdf, ?_, fun hu => hn ?_⟩
        · rw [World.wroteOffer, accepted_putOffer he, if_neg hne]
          exact haf
        · exact (Threads.exists_adv hi hu).resolve_left (by simp [unmarks_cancel, Thread.bump])
  · refine Or.inr ⟨hidle.status, fun t ht => ?_, fun g hg => ?_⟩
    · rcases hmid t ht with ht | hn
      · exact hidle.mid t ht
      · exact hn
    · obtain ⟨hgf, hg⟩ := hacc g hg
      exact hkeep g hgf (hidle.accepted g hg)

end

/-! ## Runs -/

section
variable {st₀ : Store} {w w' : World} {a : Act} {o : String}

theorem calledOffers_step (h : w.step a = some w') {f : String} (hf : f ∈ w.calledOffers o) :
    f ∈ w'.calledOffers o := by
  obtain ⟨c, hc, hcf⟩ := List.mem_filterMap.mp hf
  exact List.mem_filterMap.mpr ⟨c, calls_step h hc, hcf⟩

theorem called_step (han : Anchored st₀ w) (ha : ∀ g, w.store.AcceptedOf o g → g ∈ w.calledOffers o)
    (h : w.step a = some w') (g : String) (hg : w'.store.AcceptedOf o g) : g ∈ w'.calledOffers o := by
  have hold : w.store.AcceptedOf o g → g ∈ w'.calledOffers o := fun hg => calledOffers_step h (ha g hg)
  have hm := moves_of_step h
  cases hm with
  | accept => exact hold hg
  | cancel => exact hold hg
  | order => exact hold hg
  | deliver =>
    rw [World.handled, Store.AcceptedOf, handleOrderCancellation_offers] at hg
    exact hold hg
  | @offer i t f e e' hi hf he hw =>
    cases hw with
    | cancel =>
      rw [World.wroteOffer, accepted_putOffer he] at hg
      split at hg
      · cases hg.2
      · exact hold hg
    | accept paid o' =>
      rw [World.wroteOffer, accepted_putOffer he] at hg
      split at hg
      · rename_i hgf
        subst hgf
        have hmem : Call.accept paid o' g ∈ w.pool.map Thread.call :=
          List.mem_map.mpr ⟨_, List.mem_of_getElem? hi, rfl⟩
        refine calledOffers_step h (List.mem_filterMap.mpr ⟨_, hmem, ?_⟩)
        rw [Call.acceptedOffer, if_pos ((orderId_of_accept han hi he).symm.trans hg.1)]
      · exact hold hg

theorem agree_step (han : Anchored st₀ w) (ha : Agree o w) (hc : Orderly w a) (h : w.step a = some w') :
    Agree o w' := by
  refine ⟨called_step han ha.called h, fun d hd => ?_⟩
  cases moves_of_step h with
  | accept => exact phase_start _ (ha.phase d hd)
  | cancel => exact phase_start _ (ha.phase d hd)
  | deliver =>
    rw [World.handled, handleOrderCancellation_orders] at hd
    refine phase_frame (w := w) (fun _ ht _ => ht) (fun _ ht _ => ht) (fun g => ?_) (fun _ _ => Iff.rfl)
      (ha.phase d hd)
    rw [World.handled, Store.AcceptedOf, handleOrderCancellation_offers, Store.AcceptedOf]
  | @order i t o' d₁ d₂ hi hd₁ hw =>
    have hun := hc t hi
    rw [World.wroteOrder, Store.get_putOrder hd₁ hw.id] at hd
    split at hd
    · rename_i ho
      subst ho
      obtain rfl := Option.some.inj hd
      cases hw with
      | acceptStatus paid f => exact Or.inl ⟨f, phase_acceptStatus hi hd₁ hun ha⟩
      | acceptOffer paid f => exact Or.inl ⟨f, phase_acceptOffer hi hd₁ ha⟩
      | cancelStatus f => exact Or.inr (phase_cancelStatus hi hun ha)
    · rename_i hne
      exact phase_otherOrder hi hw hne hun (ha.phase d hd)
  | @offer i t f e e' hi hf he hw =>
    have hun := hc t hi
    cases hw with
    | cancel o' => exact phase_unmark hi he (ha.phase d hd)
    | accept paid o' =>
      have ho' : e.orderId = o' := orderId_of_accept han hi he
      by_cases ho : o = o'
      · subst ho
        exact Or.inl ⟨f, phase_accept hi he ho' hun (ha.phase d hd)⟩
      · exact phase_otherOffer hi he ho' ho (ha.phase d hd)

/-- The order is in progress if and only if exactly one of its offers is
accepted, the one it names; and an order that waits or is cancelled has none. -/
def Store.Agrees (st : Store) (o : String) (d : OrderModel) : Prop :=
  (d.status = .inProgress ↔ ∀ g, st.AcceptedOf o g ↔ g = d.offerId) ∧
    (d.status = .awaitingOffers ∨ d.status = .cancelled → ∀ g, ¬ st.AcceptedOf o g)

theorem agrees_of_phase {d : OrderModel} (hq : ∀ t ∈ w.pool, ¬ t.Midway Call.writes)
    (h : (∃ f, Serving w o d f) ∨ Idle w o d) : w.store.Agrees o d := by
  have hu : ∀ g, ¬ w.Unmarking g := by
    intro g h
    obtain ⟨t, ht, hg⟩ := h
    rw [unmarks_of_not_midway (hq t ht)] at hg
    cases hg
  rcases h with ⟨f, hs⟩ | hidle
  · rcases hs.done with ⟨t, ht, hf⟩ | ⟨rfl, hacc, -⟩
    · rw [midAccept_of_not_midway (hq t ht)] at hf
      cases hf
    · refine ⟨iff_of_true hs.status fun g => ⟨fun hg => ?_, fun hg => hg ▸ hacc⟩, ?_⟩
      · exact (hs.accepted g hg).resolve_right (hu g)
      · rw [hs.status]
        simp
  · have hnone : ∀ g, ¬ w.store.AcceptedOf o g := fun g hg => hu g (hidle.accepted g hg)
    exact ⟨iff_of_false hidle.status fun hall => hnone _ ((hall _).mpr rfl), fun _ => hnone⟩

/-- When no call is half-way, orders and offers agree, in every run whose calls
do not cross each other. -/
theorem orders_agree {st : Store}
    (h₀ : ∀ o, ∀ d ∈ st.orders.get o, d.status = .awaitingOffers ∧ ∀ f, ¬ st.AcceptedOf o f) {as : List Act}
    {w : World} (hc : Runs.Meets World.step Orderly (.init st) as)
    (h : Runs.run World.step (.init st) as = some w) (hq : ∀ t ∈ w.pool, ¬ t.Midway Call.writes) :
    ∀ o, ∀ d ∈ w.store.orders.get o, w.store.Agrees o d := by
  intro o d hd
  obtain ⟨d₀, hd₀, -⟩ := (anchored_run h).store.order hd
  have hinit : Agree o (.init st) := by
    refine ⟨fun g hg => absurd hg ((h₀ o d₀ hd₀).2 g), fun d hd => Or.inr ⟨?_, ?_, ?_⟩⟩
    · rw [(h₀ o d hd).1]
      simp
    · intro t ht
      cases ht
    · exact fun g hg => absurd hg ((h₀ o d hd).2 g)
  have hinv : Anchored st w ∧ Agree o w := by
    refine Runs.inv_run (I := fun w => Anchored st w ∧ Agree o w) ?_ ⟨anchored_init st, hinit⟩ hc h
    intro w a w' hi hcw hs
    obtain ⟨han, ha⟩ := hi
    exact ⟨anchored_step han hs, agree_step han ha hcw hs⟩
  exact agrees_of_phase hq (hinv.2.phase d hd)

end

theorem demo_awaiting : ∀ o, ∀ d ∈ demoStore.orders.get o,
    d.status = .awaitingOffers ∧ ∀ f, ¬ demoStore.AcceptedOf o f := by
  intro o d hd
  refine ⟨?_, ?_⟩
  · simp only [demoStore, Keyed.get_put, Keyed.get_empty] at hd
    split at hd
    · rw [← Option.some.inj hd]
      rfl
    · cases hd
  · intro f h
    obtain ⟨e, he, -, hs⟩ := h
    simp only [demoStore, Keyed.get_put, Keyed.get_empty] at he
    split at he
    · rw [← Option.some.inj he] at hs
      cases hs
    · split at he
      · rw [← Option.some.inj he] at hs
        cases hs
      · cases he

def demoAcceptAgain : List Act :=
  [.accept 0 0 "o" "a", .write 0, .write 0, .write 0, .cancel 3 "o", .write 1, .write 1,
   .accept 0 0 "o" "b", .write 2, .write 2, .write 2]

theorem accept_again_agrees : ∃ w, Runs.run World.step (.init demoStore) demoAcceptAgain = some w ∧
    ∀ o, ∀ d ∈ w.store.orders.get o, w.store.Agrees o d := by
  have h : (Runs.run World.step (.init demoStore) demoAcceptAgain).map (fun w =>
      decide (∀ t ∈ w.pool, ¬ t.Midway Call.writes)) = some true := by decide +kernel
  obtain ⟨w, hw, hq⟩ := Option.map_eq_some_iff.mp h
  exact ⟨w, hw, orders_agree demo_awaiting (by decide +kernel) hw (of_decide_eq_true hq)⟩

theorem accept_both_disagrees : ∃ w, Runs.run World.step (.init demoStore) demoPayBoth = some w ∧
    (∀ t ∈ w.pool, ¬ t.Midway Call.writes) ∧ ¬ ∀ o, ∀ d ∈ w.store.orders.get o, w.store.Agrees o d := by
  have h : (Runs.run World.step (.init demoStore) demoPayBoth).map (fun w =>
      decide ((∀ t ∈ w.pool, ¬ t.Midway Call.writes) ∧ w.store.AcceptedOf "o" "a" ∧ w.store.AcceptedOf "o" "b" ∧
        ∃ d ∈ w.store.orders.get "o", d.status = .inProgress)) = some true := by decide +kernel
  obtain ⟨w, hw, hd⟩ := Option.map_eq_some_iff.mp h
  obtain ⟨hq, ha, hb, d, hd, hs⟩ := of_decide_eq_true hd
  refine ⟨w, hw, hq, fun hall => ?_⟩
  have hiff := (hall "o" d hd).1.mp hs
  have hab : "a" = "b" := ((hiff "a").mp ha).trans ((hiff "b").mp hb).symm
  revert hab
  decide

end Sayaaratukcom
