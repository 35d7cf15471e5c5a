import Sayaaratukcom.Lib.Keyed
import Sayaaratukcom.Lib.Script
import Sayaaratukcom.Models

/-!
# The store and its single writes

`Store` holds the collections the sources use; orders and offers are filed
under their own ids. A `Write` is one awaited `update` of one document: it
replaces the named field, and it is refused when the document does not exist
or the id is empty.
-/

namespace Sayaaratukcom

structure Store where
  orders : Keyed OrderModel.id
  offers : Keyed OfferModel.offerId
  users : String → Option UserDoc
  /-- The records of `users/{uid}/transactions`, oldest first; `doc()` with no
  argument names a new document, so a record never replaces another. -/
  transactions : String → List TransactionModel
  providers : String → Option ProviderDoc

def Store.putOrder (st : Store) (d : OrderModel) : Store := { st with orders := st.orders.put d }

def Store.putOffer (st : Store) (e : OfferModel) : Store := { st with offers := st.offers.put e }

section
variable (st : Store) (d : OrderModel) (e : OfferModel)

@[simp] theorem Store.putOrder_offers : (st.putOrder d).offers = st.offers := rfl

@[simp] theorem Store.putOffer_orders : (st.putOffer e).orders = st.orders := rfl

variable {st d e}

theorem Store.get_putOrder {o : String} {d' : OrderModel} (h : st.orders.get o = some d) (hd : d'.id = d.id)
    (k : String) : (st.putOrder d').orders.get k = if k = o then some d' else st.orders.get k :=
  Keyed.get_put_of_get h hd k

theorem Store.get_putOffer {f : String} {e' : OfferModel} (h : st.offers.get f = some e)
    (he : e'.offerId = e.offerId) (k : String) :
    (st.putOffer e').offers.get k = if k = f then some e' else st.offers.get k :=
  Keyed.get_put_of_get h he k

theorem Store.putOrder_putOrder {d' : OrderModel} (h : d.id = d'.id) :
    (st.putOrder d).putOrder d' = st.putOrder d' := by
  rw [putOrder, putOrder, putOrder, Keyed.put_put st.orders h]

end

def Store.updateOrder (st : Store) (id : String) (f : OrderModel → OrderModel) : Option Store :=
  if id = "" then none else (st.orders.modify id f).map fun c => { st with orders := c }

def Store.updateOffer (st : Store) (id : String) (f : OfferModel → OfferModel) : Option Store :=
  if id = "" then none else (st.offers.modify id f).map fun c => { st with offers := c }

section
variable {st st' : Store} {id : String} {f : OrderModel → OrderModel} {g : OfferModel → OfferModel}

theorem Store.updateOrder_eq_some : st.updateOrder id f = some st' ↔
    id ≠ "" ∧ ∃ d, st.orders.get id = some d ∧ st' = st.putOrder (f d) := by
  unfold updateOrder
  by_cases h : id = ""
  · simp [h]
  · simp only [h, if_false, Option.map_eq_some_iff, Keyed.modify_eq_some]
    constructor
    · intro h
      obtain ⟨_, ⟨d, hd, rfl⟩, rfl⟩ := h
      exact ⟨h, d, hd, rfl⟩
    · intro h
      obtain ⟨-, d, hd, rfl⟩ := h
      exact ⟨_, ⟨d, hd, rfl⟩, rfl⟩

theorem Store.updateOrder_eq_none : st.updateOrder id f = none ↔ id = "" ∨ st.orders.get id = none := by
  unfold updateOrder
  by_cases h : id = "" <;> simp [h, Keyed.modify]

theorem Store.updateOffer_eq_some : st.updateOffer id g = some st' ↔
    id ≠ "" ∧ ∃ e, st.offers.get id = some e ∧ st' = st.putOffer (g e) := by
  unfold updateOffer
  by_cases h : id = ""
  · simp [h]
  · simp only [h, if_false, Option.map_eq_some_iff, Keyed.modify_eq_some]
    constructor
    · intro h
      obtain ⟨_, ⟨e, he, rfl⟩, rfl⟩ := h
      exact ⟨h, e, he, rfl⟩
    · intro h
      obtain ⟨-, e, he, rfl⟩ := h
      exact ⟨_, ⟨e, he, rfl⟩, rfl⟩

theorem Store.updateOffer_eq_none : st.updateOffer id g = none ↔ id = "" ∨ st.offers.get id = none := by
  unfold updateOffer
  by_cases h : id = "" <;> simp [h, Keyed.modify]

end

inductive Write where
  | orderStatus (orderId : String) (status : OrderStatus)
  | orderOffer (orderId offerId : String)
  | offerStatus (offerId : String) (status : OfferStatus)
  deriving DecidableEq

def Write.apply : Write → Store → Option Store
  | .orderStatus orderId status, st => st.updateOrder orderId (·.withStatus status)
  | .orderOffer orderId offerId, st => st.updateOrder orderId (·.withOffer offerId)
  | .offerStatus offerId status, st => st.updateOffer offerId (·.withStatus status)

def Store.offerHas (st : Store) (offerId : String) (status : OfferStatus) : Prop :=
  ∃ e, st.offers.get offerId = some e ∧ e.status = status

/-- What has become of a write that a client starts without awaiting it. -/
inductive WriteStatus where
  | unsent
  | pending
  | committed
  | refused
  deriving DecidableEq

/-- The app's updates of single fields of `users/{uid}`: the token that
`initNotifications` writes and the address that `uploadFile` writes. -/
inductive AppUpdate where
  | fcmToken (uid : String) (token : Option String)
  | avatarUrl (uid : String) (url : String)
  deriving DecidableEq

def AppUpdate.uid : AppUpdate → String
  | .fcmToken uid _ | .avatarUrl uid _ => uid

def AppUpdate.onUser : AppUpdate → UserDoc → UserDoc
  | .fcmToken _ token, user => { user with fcmToken := token }
  | .avatarUrl _ url, user => { user with avatarUrl := some url }

/-- An update of a document that does not exist fails and changes nothing. -/
def AppUpdate.apply (m : AppUpdate) (st : Store) : Store :=
  { st with users := Function.update st.users m.uid ((st.users m.uid).map m.onUser) }

section
variable (m : AppUpdate) (st : Store)

@[simp] theorem AppUpdate.apply_transactions : (m.apply st).transactions = st.transactions := rfl

theorem AppUpdate.apply_users (uid : String) :
    (m.apply st).users uid = (st.users uid).map fun user => if uid = m.uid then m.onUser user else user := by
  by_cases h : uid = m.uid
  · subst h
    simp only [apply, Function.update_self, if_true]
  · simp only [apply, Function.update_of_ne h, h, if_false, Option.map_id']

end

/-! ## A small store

One electronically paid order of user `u` with two pending offers, for the
concrete runs below. -/

def demoOrder : OrderModel where
  id := "o"
  offerId := ""
  service := ⟨"سطحة", "تحتاج تنقل سيارتك لأي مكان؟", "assets/images/services/transport.png"⟩
  user := "u"
  createdAt := 0
  description := ""
  vehicle := "سيدان"
  originPoint := ⟨24, 46⟩
  originAddress := "الرياض"
  destinationPoint := ⟨21, 39⟩
  destinationAddress := "جدة"
  paymentOption := .electronic
  status := .awaitingOffers

def demoOffer (offerId : String) (price : ℚ) : OfferModel where
  orderId := "o"
  offerId := offerId
  price := price
  description := ""
  serviceProvider := ["p", "ورشة", ""]
  status := .pending
  createdAt := 1

def demoUser : UserDoc where
  phone := some "+966500000000"
  uid := some "u"
  name := some "مستخدم"
  avatarUrl := some ""
  email := some ""
  gender := some "ذكر"
  balance := some (.double 0)
  fcmToken := none

def demoStore : Store where
  orders := Keyed.empty.put demoOrder
  offers := (Keyed.empty.put (demoOffer "a" 100)).put (demoOffer "b" 10)
  users := Function.update (fun _ => none) "u" (some demoUser)
  transactions := fun _ => []
  providers := fun _ => none

end Sayaaratukcom
