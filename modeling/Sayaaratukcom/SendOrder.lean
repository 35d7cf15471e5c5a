import Sayaaratukcom.Store

/-!
# Accepting an offer and cancelling an order

`acceptOffer` and `cancelOrder` await their writes one after the other inside
one `try` block. `asserts` says whether `doc("")` throws already when the
references are made, which is before the block (an assertion of the SDK, on in
debug builds), or only when the document is written.
-/

namespace Sayaaratukcom

/-- What a call does to the screen once its writes are over. -/
inductive Effect where
  | navigatorPop
  | log
  | snackBar
  | uncaughtError
  deriving DecidableEq

def acceptWrites (orderId offerId : String) : List Write :=
  [.orderStatus orderId .inProgress, .orderOffer orderId offerId, .offerStatus offerId .accepted]

def cancelWrites (orderId offerId : String) : List Write :=
  [.orderStatus orderId .cancelled, .offerStatus offerId .orderCancelled]

def refThrows (asserts : Bool) (orderId offerId : String) : Prop :=
  asserts = true ∧ (orderId = "" ∨ offerId = "")

instance (asserts : Bool) (orderId offerId : String) : Decidable (refThrows asserts orderId offerId) :=
  instDecidableAnd

/-- A call that makes the two references and then runs `ws` in a `try` block,
with two pops at its end and `onError` in the `catch`. -/
def tryWrites (asserts : Bool) (fault : ℕ → Bool) (orderId offerId : String) (ws : List Write)
    (onError : List Effect) (st : Store) : Store × List Effect :=
  if refThrows asserts orderId offerId then (st, [.uncaughtError])
  else
    let r := Script.exec Write.apply fault ws st
    (r.1, if r.2 then [.navigatorPop, .navigatorPop] else onError)

def acceptOffer (asserts : Bool) (fault : ℕ → Bool) (orderId offerId : String) (st : Store) :
    Store × List Effect :=
  tryWrites asserts fault orderId offerId (acceptWrites orderId offerId) [.log] st

def cancelOrder (asserts : Bool) (fault : ℕ → Bool) (orderId offerId : String) (st : Store) :
    Store × List Effect :=
  tryWrites asserts fault orderId offerId (cancelWrites orderId offerId) [.log, .snackBar] st

/-! ## What a call leaves -/

section
variable {asserts : Bool} {fault : ℕ → Bool} {o f : String} {st : Store}

/-- The call does not get past its first write. -/
def Stopped (asserts : Bool) (fault : ℕ → Bool) (o f : String) (st : Store) : Prop :=
  refThrows asserts o f ∨ fault 0 = true ∨ o = "" ∨ st.orders.get o = none

def OfferFails (fault : ℕ → Bool) (i : ℕ) (f : String) (st : Store) : Prop :=
  fault i = true ∨ f = "" ∨ st.offers.get f = none

theorem tryWrites_stopped {w : Write} {ws : List Write} {onError : List Effect} {s : OrderStatus}
    (hw : w = .orderStatus o s) (h : Stopped asserts fault o f st) :
    (tryWrites asserts fault o f (w :: ws) onError st).1 = st := by
  subst hw
  unfold tryWrites
  split
  · rfl
  · rename_i hr
    rcases h with h | h | h
    · exact absurd h hr
    · rw [Script.exec_fault h]
    · rw [Script.exec_refused (Store.updateOrder_eq_none.mpr h)]

theorem not_stopped (h : ¬ Stopped asserts fault o f st) :
    ¬ refThrows asserts o f ∧ fault 0 = false ∧ o ≠ "" ∧ ∃ d, st.orders.get o = some d := by
  simp only [Stopped, not_or, Bool.not_eq_true] at h
  obtain ⟨h1, h2, h3, h4⟩ := h
  exact ⟨h1, h2, h3, Option.ne_none_iff_exists'.mp h4⟩

theorem offerFails_write {i : ℕ} {s : OfferStatus} (h : OfferFails fault i f st) :
    fault i = true ∨ (Write.offerStatus f s).apply st = none :=
  h.imp_right Store.updateOffer_eq_none.mpr

theorem not_offerFails {i : ℕ} (h : ¬ OfferFails fault i f st) :
    fault i = false ∧ ∃ e, st.offers.get f = some e ∧
      ∀ s, (Write.offerStatus f s).apply st = some (st.putOffer (e.withStatus s)) := by
  simp only [OfferFails, not_or, Bool.not_eq_true] at h
  obtain ⟨h1, h2, h3⟩ := h
  obtain ⟨e, he⟩ := Option.ne_none_iff_exists'.mp h3
  exact ⟨h1, e, he, fun s => Store.updateOffer_eq_some.mpr ⟨h2, e, he, rfl⟩⟩

variable {d : OrderModel} (hs : ¬ Stopped asserts fault o f st) (hd : st.orders.get o = some d)
include hs hd

theorem tryWrites_first {s : OrderStatus} {ws : List Write} {onError : List Effect} :
    (tryWrites asserts fault o f (.orderStatus o s :: ws) onError st).1 =
      (Script.exec Write.apply (fun i => fault (i + 1)) ws (st.putOrder (d.withStatus s))).1 := by
  obtain ⟨hr, h0, ho, -⟩ := not_stopped hs
  rw [tryWrites, if_neg hr]
  exact congrArg Prod.fst (Script.exec_landed h0 (Store.updateOrder_eq_some.mpr ⟨ho, d, hd, rfl⟩))

theorem accept_second_fails (h1 : fault 1 = true) :
    (acceptOffer asserts fault o f st).1 = st.putOrder (d.withStatus .inProgress) := by
  rw [acceptOffer, acceptWrites, tryWrites_first hs hd, Script.exec_fault h1]

theorem accept_second (h1 : fault 1 = false) :
    (acceptOffer asserts fault o f st).1 =
      (Script.exec Write.apply (fun i => fault (i + 2)) [.offerStatus f .accepted]
        (st.putOrder ((d.withStatus .inProgress).withOffer f))).1 := by
  have ho : o ≠ "" := (not_stopped hs).2.2.1
  have hw : (Write.orderOffer o f).apply (st.putOrder (d.withStatus .inProgress)) =
      some (st.putOrder ((d.withStatus .inProgress).withOffer f)) := by
    refine Store.updateOrder_eq_some.mpr ⟨ho, d.withStatus .inProgress, ?_, ?_⟩
    · rw [Store.get_putOrder hd (by simp), if_pos rfl]
    · rw [Store.putOrder_putOrder (by simp)]
  rw [acceptOffer, acceptWrites, tryWrites_first hs hd, Script.exec_landed h1 hw]

theorem accept_third_fails (h1 : fault 1 = false) (h2 : OfferFails fault 2 f st) :
    (acceptOffer asserts fault o f st).1 = st.putOrder ((d.withStatus .inProgress).withOffer f) := by
  rw [accept_second hs hd h1]
  have h2' : OfferFails fault 2 f (st.putOrder ((d.withStatus .inProgress).withOffer f)) := h2
  rcases offerFails_write h2' with h | h
  · rw [Script.exec_fault h]
  · rw [Script.exec_refused h]

theorem accept_completes (h1 : fault 1 = false) (h2 : ¬ OfferFails fault 2 f st) :
    ∃ e, st.offers.get f = some e ∧ (acceptOffer asserts fault o f st).1 =
      (st.putOrder ((d.withStatus .inProgress).withOffer f)).putOffer (e.withStatus .accepted) := by
  have h2' : ¬ OfferFails fault 2 f (st.putOrder ((d.withStatus .inProgress).withOffer f)) := h2
  obtain ⟨h2, e, he, hw⟩ := not_offerFails h2'
  refine ⟨e, he, ?_⟩
  rw [accept_second hs hd h1, Script.exec_landed h2 (hw _), Script.exec_nil]

theorem cancel_second_fails (h1 : OfferFails fault 1 f st) :
    (cancelOrder asserts fault o f st).1 = st.putOrder (d.withStatus .cancelled) := by
  rw [cancelOrder, cancelWrites, tryWrites_first hs hd]
  have h1' : OfferFails fault 1 f (st.putOrder (d.withStatus .cancelled)) := h1
  rcases offerFails_write h1' with h | h
  · rw [Script.exec_fault h]
  · rw [Script.exec_refused h]

theorem cancel_completes (h1 : ¬ OfferFails fault 1 f st) :
    ∃ e, st.offers.get f = some e ∧ (cancelOrder asserts fault o f st).1 =
      (st.putOrder (d.withStatus .cancelled)).putOffer (e.withStatus .orderCancelled) := by
  have h1' : ¬ OfferFails fault 1 f (st.putOrder (d.withStatus .cancelled)) := h1
  obtain ⟨h1, e, he, hw⟩ := not_offerFails h1'
  refine ⟨e, he, ?_⟩
  rw [cancelOrder, cancelWrites, tryWrites_first hs hd, Script.exec_landed h1 (hw _), Script.exec_nil]

end

end Sayaaratukcom
