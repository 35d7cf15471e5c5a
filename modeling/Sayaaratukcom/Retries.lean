import Sayaaratukcom.Lib.Retry
import Sayaaratukcom.SendOrder

/-!
# Trying again after an error

After an error `acceptOffer` and `cancelOrder` leave their sheet or dialog open,
with part of the writes made, and the button can be pressed again. Each write sets
one field, so another attempt that nothing disturbs ends as if it were the first.
-/

namespace Sayaaratukcom

section
variable {o f : String} {g g' : OrderModel → OrderModel} {k : OfferModel → OfferModel}

theorem Store.putOffer_putOffer {st : Store} {e e' : OfferModel} (h : e.offerId = e'.offerId) :
    (st.putOffer e).putOffer e' = st.putOffer e' := by
  rw [putOffer, putOffer, putOffer, Keyed.put_put st.offers h]

/-- What the two writes of an order do together, the first one first. -/
theorem updateOrder_then (hid : ∀ d, (g d).id = d.id) (hid' : ∀ d, (g' d).id = d.id) {st st' : Store}
    (h : st.updateOrder o g = some st') :
    ∃ d, st.orders.get o = some d ∧ st' = st.putOrder (g d) ∧
      st'.updateOrder o g' = some (st.putOrder (g' (g d))) := by
  obtain ⟨ho, d, hd, rfl⟩ := Store.updateOrder_eq_some.mp h
  refine ⟨d, hd, rfl, Store.updateOrder_eq_some.mpr ⟨ho, g d, ?_, ?_⟩⟩
  · rw [Store.get_putOrder hd (hid d), if_pos rfl]
  · rw [Store.putOrder_putOrder (hid' (g d)).symm]

theorem updateOrder_twice (hid : ∀ d, (g d).id = d.id) (hg : ∀ d, g (g d) = g d) {st st' : Store}
    (h : st.updateOrder o g = some st') : st'.updateOrder o g = some st' := by
  obtain ⟨d, -, rfl, htwo⟩ := updateOrder_then hid hid h
  rw [htwo, hg]

theorem updateOffer_twice (hid : ∀ e, (k e).offerId = e.offerId) (hk : ∀ e, k (k e) = k e) {st st' : Store}
    (h : st.updateOffer f k = some st') : st'.updateOffer f k = some st' := by
  obtain ⟨hf, e, he, rfl⟩ := Store.updateOffer_eq_some.mp h
  refine Store.updateOffer_eq_some.mpr ⟨hf, k e, ?_, ?_⟩
  · rw [Store.get_putOffer he (hid e), if_pos rfl]
  · rw [Store.putOffer_putOffer (hid (k e)).symm, hk]

theorem updateOrder_diamond (hid : ∀ d, (g d).id = d.id) (hid' : ∀ d, (g' d).id = d.id)
    (hg : ∀ d, g (g' d) = g' (g d)) {st st₁ st₂ : Store} (h₁ : st.updateOrder o g = some st₁)
    (h₂ : st.updateOrder o g' = some st₂) :
    ∃ t, st₁.updateOrder o g' = some t ∧ st₂.updateOrder o g = some t := by
  obtain ⟨d, hd, rfl, htwo⟩ := updateOrder_then hid hid' h₁
  obtain ⟨d', hd', rfl, htwo'⟩ := updateOrder_then hid' hid h₂
  obtain rfl := Option.some.inj (hd.symm.trans hd')
  exact ⟨_, htwo, by rw [htwo', hg]⟩

theorem updateOrder_updateOffer {st st₁ st₂ : Store} (h₁ : st.updateOrder o g = some st₁)
    (h₂ : st.updateOffer f k = some st₂) :
    ∃ t, st₁.updateOffer f k = some t ∧ st₂.updateOrder o g = some t := by
  obtain ⟨ho, d, hd, rfl⟩ := Store.updateOrder_eq_some.mp h₁
  obtain ⟨hf, e, he, rfl⟩ := Store.updateOffer_eq_some.mp h₂
  exact ⟨(st.putOrder (g d)).putOffer (k e), Store.updateOffer_eq_some.mpr ⟨hf, e, he, rfl⟩,
    Store.updateOrder_eq_some.mpr ⟨ho, d, hd, rfl⟩⟩

end

theorem Write.twice (wr : Write) : Script.Twice Write.apply wr := by
  intro st st' h
  cases wr with
  | orderStatus o s => exact updateOrder_twice (fun d => d.withStatus_id s) (fun _ => rfl) h
  | orderOffer o f => exact updateOrder_twice (fun d => d.withOffer_id f) (fun _ => rfl) h
  | offerStatus f s => exact updateOffer_twice (fun e => e.withStatus_offerId s) (fun _ => rfl) h

theorem acceptWrites_repeatable (o f : String) : Script.Repeatable Write.apply (acceptWrites o f) where
  twice wr _ := wr.twice
  diamond := by
    refine .cons ?_ (.cons ?_ (List.pairwise_singleton _ _))
    · intro wr hwr
      rcases List.mem_pair.mp hwr with rfl | rfl
      · exact fun _ _ _ h₁ h₂ =>
          updateOrder_diamond (fun d => d.withStatus_id .inProgress) (fun d => d.withOffer_id f) (fun _ => rfl)
            h₁ h₂
      · exact fun _ _ _ h₁ h₂ => updateOrder_updateOffer h₁ h₂
    · intro wr hwr
      obtain rfl := List.mem_singleton.mp hwr
      exact fun _ _ _ h₁ h₂ => updateOrder_updateOffer h₁ h₂

theorem cancelWrites_repeatable (o f : String) : Script.Repeatable Write.apply (cancelWrites o f) where
  twice wr _ := wr.twice
  diamond := by
    refine .cons ?_ (List.pairwise_singleton _ _)
    intro wr hwr
    obtain rfl := List.mem_singleton.mp hwr
    exact fun _ _ _ h₁ h₂ => updateOrder_updateOffer h₁ h₂

section
variable (asserts : Bool) (o f : String) {ws : List Write} (onError : List Effect)

theorem tryWrites_again (h : Script.Repeatable Write.apply ws) (fault : ℕ → Bool) (st : Store) :
    tryWrites asserts (fun _ => false) o f ws onError (tryWrites asserts fault o f ws onError st).1 =
      tryWrites asserts (fun _ => false) o f ws onError st := by
  unfold tryWrites
  by_cases hr : refThrows asserts o f
  · simp only [if_pos hr]
  · simp only [if_neg hr]
    have hagain := Script.undisturbed_again h fault st
    unfold Script.undisturbed at hagain
    rw [hagain]

theorem tryWrites_attempts (h : Script.Repeatable Write.apply ws) (faults : List (ℕ → Bool)) (st : Store) :
    tryWrites asserts (fun _ => false) o f ws onError
        (faults.foldl (fun st fault => (tryWrites asserts fault o f ws onError st).1) st) =
      tryWrites asserts (fun _ => false) o f ws onError st := by
  induction faults generalizing st with
  | nil => rfl
  | cons fault faults ih =>
    rw [List.foldl_cons, ih]
    exact tryWrites_again asserts o f onError h fault st

end

/-- Whatever attempts at a call have been made and wherever each has stopped, an
attempt that nothing disturbs leaves and shows what it would have on its own. -/
theorem retries_heal (asserts : Bool) (o f : String) (faults : List (ℕ → Bool)) (st : Store) :
    acceptOffer asserts (fun _ => false) o f
        (faults.foldl (fun st fault => (acceptOffer asserts fault o f st).1) st) =
      acceptOffer asserts (fun _ => false) o f st ∧
    cancelOrder asserts (fun _ => false) o f
        (faults.foldl (fun st fault => (cancelOrder asserts fault o f st).1) st) =
      cancelOrder asserts (fun _ => false) o f st :=
  ⟨tryWrites_attempts asserts o f _ (acceptWrites_repeatable o f) faults st,
    tryWrites_attempts asserts o f _ (cancelWrites_repeatable o f) faults st⟩

end Sayaaratukcom
