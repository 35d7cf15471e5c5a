import Mathlib.Data.Rat.Defs
import Mathlib.Algebra.Order.Ring.Rat

/-!
# Documents

The documents of the Firestore collections, with the fields of the app's
models. A status or payment option is stored as an Arabic text; the types
below name the texts the sources compare with, and `other` holds any text that
is none of these, so each text has one representation.
-/

namespace Sayaaratukcom

abbrev Timestamp := ℤ

inductive OrderStatus where
  | awaitingOffers -- "في إنتظار العروض"
  | inProgress -- "جاري التنفيذ"
  | cancelled -- "ملغي"
  | other (text : String) (h : text ∉ ["في إنتظار العروض", "جاري التنفيذ", "ملغي"])
  deriving DecidableEq

inductive OfferStatus where
  | pending -- "في الإنتظار"
  | accepted -- "تم القبول"
  | orderCancelled -- "تم إلغاء الطلب"
  | other (text : String) (h : text ∉ ["في الإنتظار", "تم القبول", "تم إلغاء الطلب"])
  deriving DecidableEq

inductive PaymentOption where
  | electronic -- "الدفع الإلكتروني"
  | cash -- "الدفع نقداً"
  | other (text : String) (h : text ∉ ["الدفع الإلكتروني", "الدفع نقداً"])
  deriving DecidableEq

/-- A stored number: Firestore keeps integers and doubles apart. Doubles are
taken as exact. -/
inductive Num where
  | int (n : ℤ)
  | double (q : ℚ)
  deriving DecidableEq

def Num.val : Num → ℚ
  | .int n => n
  | .double q => q

/-- How the Node SDK stores a number: a safe integer as an integer, any other
number as a double. -/
def Num.ofJs (q : ℚ) : Num :=
  if q.den = 1 ∧ |q.num| ≤ 2 ^ 53 - 1 then .int q.num else .double q

@[simp] theorem Num.val_ofJs (q : ℚ) : (Num.ofJs q).val = q := by
  unfold Num.ofJs
  split
  · rename_i h
    exact (Rat.den_eq_one_iff q).mp h.1
  · rfl

structure GeoPoint where
  latitude : ℚ
  longitude : ℚ
  deriving DecidableEq

structure ServiceModel where
  label : String
  description : String
  asset : String
  deriving DecidableEq

structure OrderModel where
  id : String
  offerId : String
  service : ServiceModel
  user : String
  createdAt : Timestamp
  description : String
  vehicle : String
  originPoint : GeoPoint
  originAddress : String
  destinationPoint : GeoPoint
  destinationAddress : String
  paymentOption : PaymentOption
  status : OrderStatus
  deriving DecidableEq

def OrderModel.withStatus (d : OrderModel) (status : OrderStatus) : OrderModel := { d with status }

def OrderModel.withOffer (d : OrderModel) (offerId : String) : OrderModel := { d with offerId }

section
variable (d : OrderModel) (s : OrderStatus) (f : String)

@[simp] theorem OrderModel.withStatus_id : (d.withStatus s).id = d.id := rfl

@[simp] theorem OrderModel.withStatus_offerId : (d.withStatus s).offerId = d.offerId := rfl

@[simp] theorem OrderModel.withStatus_status : (d.withStatus s).status = s := rfl

@[simp] theorem OrderModel.withOffer_id : (d.withOffer f).id = d.id := rfl

@[simp] theorem OrderModel.withOffer_offerId : (d.withOffer f).offerId = f := rfl

@[simp] theorem OrderModel.withOffer_status : (d.withOffer f).status = d.status := rfl

theorem OrderModel.withStatus_eq_self : d.withStatus s = d ↔ d.status = s :=
  ⟨fun h => congrArg OrderModel.status h.symm, fun h => by cases d; cases h; rfl⟩

theorem OrderModel.withOffer_eq_self : d.withOffer f = d ↔ d.offerId = f :=
  ⟨fun h => congrArg OrderModel.offerId h.symm, fun h => by cases d; cases h; rfl⟩

end

/-- A document of `offers`; `serviceProvider` is the provider's id, name and
avatar. -/
structure OfferModel where
  orderId : String
  offerId : String
  price : ℚ
  description : String
  serviceProvider : List String
  status : OfferStatus
  createdAt : Timestamp
  deriving DecidableEq

def OfferModel.withStatus (e : OfferModel) (status : OfferStatus) : OfferModel := { e with status }

section
variable (e : OfferModel) (s : OfferStatus)

@[simp] theorem OfferModel.withStatus_offerId : (e.withStatus s).offerId = e.offerId := rfl

@[simp] theorem OfferModel.withStatus_orderId : (e.withStatus s).orderId = e.orderId := rfl

@[simp] theorem OfferModel.withStatus_status : (e.withStatus s).status = s := rfl

end

/-- A document of `users`, in which any field may be missing. -/
structure UserDoc where
  phone : Option String
  uid : Option String
  name : Option String
  avatarUrl : Option String
  email : Option String
  gender : Option String
  balance : Option Num
  fcmToken : Option String
  deriving DecidableEq

structure TransactionModel where
  transaction : String
  amount : Num
  dueAt : Timestamp
  deriving DecidableEq

/-- What the functions read of a document of `providers`. -/
structure ProviderDoc where
  fcmToken : Option String
  deriving DecidableEq

end Sayaaratukcom
