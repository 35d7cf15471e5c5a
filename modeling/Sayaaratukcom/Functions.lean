import Mathlib.Logic.Function.Basic
import Sayaaratukcom.Lib.Optimistic
import Sayaaratukcom.Store

/-!
# Cloud functions

The handler of order updates refunds an electronically paid order that enters
the cancelled status; the handler of offer updates pushes a message to the
provider of an offer that is accepted. `index` is what `functions/index.js`
exports, and `deploy` keeps what Firebase deploys of it.
-/

namespace Sayaaratukcom

structure OrderUpdate where
  orderId : String
  before : OrderModel
  after : OrderModel
  deriving DecidableEq

structure OfferUpdate where
  offerId : String
  before : OfferModel
  after : OfferModel
  deriving DecidableEq

/-! ## handleOrderCancellation -/

/-- A refund that has passed every check before its transaction. -/
structure RefundTask where
  orderId : String
  userId : String
  offerPrice : ℚ
  deriving DecidableEq

/-- How an invocation ends; its promise is fulfilled in each case. -/
inductive Outcome where
  | ignored
  | otherPayment -- "Payment option is not 'الدفع الإلكتروني'. No action taken."
  | noSuchOffer -- "No such offer document!"
  | failed -- "Error processing order cancellation:"
  | refunded (t : RefundTask)
  deriving DecidableEq

def OrderUpdate.cancels (u : OrderUpdate) : Prop :=
  u.before.status ≠ .cancelled ∧ u.after.status = .cancelled

instance (u : OrderUpdate) : Decidable u.cancels := instDecidableAnd

/-- The handler up to its transaction: the two guards, the look-up of the offer
and the reference to the user, where an empty id throws. -/
def readOffer (u : OrderUpdate) (st : Store) : Except Outcome RefundTask :=
  if u.cancels then
    if u.after.paymentOption = .electronic then
      if u.after.offerId = "" then .error .failed
      else
        match st.offers.get u.after.offerId with
        | none => .error .noSuchOffer
        | some offer =>
          if u.after.user = "" then .error .failed
          else .ok { orderId := u.orderId, userId := u.after.user, offerPrice := offer.price }
    else .error .otherPayment
  else .error .ignored

/-- `userData.balance || 0` -/
def currentBalance (user : UserDoc) : ℚ := (user.balance.map Num.val).getD 0

def refundText (orderId : String) : String := "استرجاع رسوم الطلب " ++ orderId

def refundRecord (t : RefundTask) (now : Timestamp) : TransactionModel where
  transaction := refundText t.orderId
  amount := .ofJs t.offerPrice
  dueAt := now

def UserDoc.credit (user : UserDoc) (price : ℚ) : UserDoc :=
  { user with balance := some (.ofJs (currentBalance user + price)) }

def Store.commitRefund (st : Store) (t : RefundTask) (user : UserDoc) (now : Timestamp) : Store :=
  { st with
    users := Function.update st.users t.userId (some (user.credit t.offerPrice))
    transactions := Function.update st.transactions t.userId
      (st.transactions t.userId ++ [refundRecord t now]) }

/-- The transaction body on the user document it has read; without one it
throws "No such user document!". -/
def refundBody (t : RefundTask) (now : Timestamp) : Option UserDoc → Option (Store → Store)
  | none => none
  | some user => some fun st => st.commitRefund t user now

def handleOrderCancellation (now : Timestamp) (u : OrderUpdate) (st : Store) : Outcome × Store :=
  match readOffer u st with
  | .error e => (e, st)
  | .ok t =>
    match refundBody t now (st.users t.userId) with
    | none => (.failed, st)
    | some commit => (.refunded t, commit st)

def demoCancellation (offerId : String) : OrderUpdate where
  orderId := "o"
  before := (demoOrder.withStatus .inProgress).withOffer offerId
  after := (demoOrder.withStatus .cancelled).withOffer offerId

/-! ## notifyOnOfferAccepted -/

structure Message where
  title : String
  body : String
  token : String
  deriving DecidableEq

/-- The message sent, if any: an empty or missing id, provider or token ends
the handler without one. -/
def notifyOnOfferAccepted (u : OfferUpdate) (st : Store) : Option Message :=
  if u.before.status ≠ .accepted ∧ u.after.status = .accepted then
    match u.after.serviceProvider[0]? with
    | none | some "" => none
    | some providerId =>
      match st.providers providerId with
      | none => none
      | some provider =>
        match provider.fcmToken with
        | none | some "" => none
        | some token => some {
            title := "تم قبول عرضك"
            body := "تم قبول عرضك " ++ u.offerId ++ "، يرجى التفاعل مع المستخدم"
            token }
  else none

/-! ## Exports and deployment -/

inductive Trigger where
  | onOrderUpdate (handler : Timestamp → OrderUpdate → Store → Store)
  | onOfferUpdate (handler : OfferUpdate → Store → Option Message)

/-- The properties of a module's `exports`; reading any other is `undefined`. -/
abbrev Exports := List (String × Trigger)

def notifyOfferAcceptedJs : Exports := [("notifyOnOfferAccepted", .onOfferUpdate notifyOnOfferAccepted)]

def handleOrderCancellationJs : Exports :=
  [("handleOrderCancellation", .onOrderUpdate fun now u st => (handleOrderCancellation now u st).2)]

def require : String → Exports
  | "./notify_offer_accepted" => notifyOfferAcceptedJs
  | "./handle_order_cancellation" => handleOrderCancellationJs
  | _ => []

/-- `functions/index.js`: both names are taken from `./notify_offer_accepted`. -/
def index : List (String × Option Trigger) :=
  [("notifyOnOfferAccepted", (require "./notify_offer_accepted").lookup "notifyOnOfferAccepted"),
   ("handleOrderCancellation", (require "./notify_offer_accepted").lookup "handleOrderCancellation")]

def deploy (exports : List (String × Option Trigger)) : List Trigger := exports.filterMap Prod.snd

def deliverOrderUpdate (triggers : List Trigger) (now : Timestamp) (u : OrderUpdate) (st : Store) : Store :=
  triggers.foldl (fun st t =>
    match t with
    | .onOrderUpdate handler => handler now u st
    | .onOfferUpdate _ => st) st

end Sayaaratukcom
