import Sayaaratukcom.Account
import Sayaaratukcom.Lib.Documents

/-!
# What is stored, and how it is read

The documents as `toJson` and the functions write them, and the readers of the
app. A Dart field of type `double` takes no integer, so `fromJson` fails where
a document holds one; `initUser` converts instead.
-/

namespace Sayaaratukcom

open Documents (Doc Value)

/-! ## Texts -/

def OrderStatus.text : OrderStatus → String
  | .awaitingOffers => "في إنتظار العروض"
  | .inProgress => "جاري التنفيذ"
  | .cancelled => "ملغي"
  | .other text _ => text

def OrderStatus.ofText (s : String) : OrderStatus :=
  if h : s ∈ ["في إنتظار العروض", "جاري التنفيذ", "ملغي"] then
    if s = "في إنتظار العروض" then .awaitingOffers
    else if s = "جاري التنفيذ" then .inProgress
    else .cancelled
  else .other s h

@[simp] theorem OrderStatus.ofText_text (s : OrderStatus) : ofText s.text = s := by
  cases s with
  | awaitingOffers => decide
  | inProgress => decide
  | cancelled => decide
  | other text h => exact dif_neg h

def PaymentOption.text : PaymentOption → String
  | .electronic => "الدفع الإلكتروني"
  | .cash => "الدفع نقداً"
  | .other text _ => text

def PaymentOption.ofText (s : String) : PaymentOption :=
  if h : s ∈ ["الدفع الإلكتروني", "الدفع نقداً"] then
    if s = "الدفع الإلكتروني" then .electronic else .cash
  else .other s h

@[simp] theorem PaymentOption.ofText_text (p : PaymentOption) : ofText p.text = p := by
  cases p with
  | electronic => decide
  | cash => decide
  | other text h => exact dif_neg h

/-! ## Orders -/

def ServiceModel.toJson (service : ServiceModel) : List (String × Value) :=
  [("label", .string service.label), ("asset", .string service.asset),
   ("description", .string service.description)]

def ServiceModel.fromJson (json : Doc) : Option ServiceModel := do
  let label ← json.read "label" Value.asString
  let asset ← json.read "asset" Value.asString
  let description ← json.read "description" Value.asString
  return { label, asset, description }

def GeoPoint.toValue (p : GeoPoint) : Value := .geoPoint p.latitude p.longitude

def GeoPoint.ofValue (v : Value) : Option GeoPoint := v.asGeoPoint.map fun p => ⟨p.1, p.2⟩

def OrderModel.toJson (order : OrderModel) : Doc :=
  .ofList [
    ("id", .string order.id),
    ("offerId", .string order.offerId),
    ("service", .map order.service.toJson),
    ("user", .string order.user),
    ("createdAt", .timestamp order.createdAt),
    ("description", .string order.description),
    ("vehicle", .string order.vehicle),
    ("originPoint", order.originPoint.toValue),
    ("originAddress", .string order.originAddress),
    ("destinationPoint", order.destinationPoint.toValue),
    ("destinationAddress", .string order.destinationAddress),
    ("paymentOption", .string order.paymentOption.text),
    ("status", .string order.status.text)]

def OrderModel.fromJson (json : Doc) : Option OrderModel := do
  let id ← json.read "id" Value.asString
  let offerId ← json.read "offerId" Value.asString
  let service ← (json.read "service" Doc.asMap).bind ServiceModel.fromJson
  let user ← json.read "user" Value.asString
  let createdAt ← json.read "createdAt" Value.asTimestamp
  let description ← json.read "description" Value.asString
  let vehicle ← json.read "vehicle" Value.asString
  let originPoint ← json.read "originPoint" GeoPoint.ofValue
  let originAddress ← json.read "originAddress" Value.asString
  let destinationPoint ← json.read "destinationPoint" GeoPoint.ofValue
  let destinationAddress ← json.read "destinationAddress" Value.asString
  let paymentOption ← json.read "paymentOption" Value.asString
  let status ← json.read "status" Value.asString
  return {
    id, offerId, service, user, createdAt, description, vehicle, originPoint, originAddress, destinationPoint
    destinationAddress
    paymentOption := .ofText paymentOption
    status := .ofText status }

theorem OrderModel.fromJson_toJson (order : OrderModel) : fromJson order.toJson = some order := by
  have h : fromJson order.toJson = some { order with
      paymentOption := .ofText order.paymentOption.text
      status := .ofText order.status.text } := rfl
  rw [h, PaymentOption.ofText_text, OrderStatus.ofText_text]

theorem OrderModel.toJson_withStatus (order : OrderModel) (s : OrderStatus) :
    order.toJson.set "status" (.string s.text) = (order.withStatus s).toJson := by
  rw [toJson, Doc.set_ofList (by simp)]
  simp [toJson, withStatus]

theorem OrderModel.toJson_withOffer (order : OrderModel) (f : String) :
    order.toJson.set "offerId" (.string f) = (order.withOffer f).toJson := by
  rw [toJson, Doc.set_ofList (by simp)]
  simp [toJson, withOffer]

/-! ## Messages and requests -/

structure ChatModel where
  user : String
  message : String
  sentAt : Timestamp
  deriving DecidableEq

def ChatModel.toJson (chat : ChatModel) : Doc :=
  .ofList [("user", .string chat.user), ("message", .string chat.message), ("sentAt", .timestamp chat.sentAt)]

def ChatModel.fromJson (json : Doc) : Option ChatModel := do
  let user ← json.read "user" Value.asString
  let message ← json.read "message" Value.asString
  let sentAt ← json.read "sentAt" Value.asTimestamp
  return { user, message, sentAt }

theorem ChatModel.fromJson_toJson (chat : ChatModel) : fromJson chat.toJson = some chat := by
  simp [fromJson, toJson, Doc.read, Value.asString, Value.asTimestamp]

structure SupportModel where
  title : String
  message : String
  uid : String
  sentAt : Timestamp
  deriving DecidableEq

def SupportModel.toJson (request : SupportModel) : Doc :=
  .ofList [("title", .string request.title), ("message", .string request.message),
    ("uid", .string request.uid), ("sentAt", .timestamp request.sentAt)]

/-! ## Users -/

def Num.toValue : Num → Value
  | .int n => .integer n
  | .double q => .double q

def Num.ofValue : Value → Option Num
  | .integer n => some (.int n)
  | .double q => some (.double q)
  | _ => none

@[simp] theorem Num.ofValue_toValue (n : Num) : ofValue n.toValue = some n := by
  cases n <;> rfl

/-- What `registerUser` sets. -/
def UserModel.toDoc (user : UserModel) : Doc :=
  .ofList [
    ("phone", .string user.phone),
    ("uid", .string user.uid),
    ("name", .string user.name),
    ("avatarUrl", .string user.avatarUrl),
    ("email", .string user.email),
    ("gender", .string user.gender),
    ("balance", .double user.balance)]

/-- The fields of a document of `users`, where they have their types. -/
def UserDoc.ofDoc (json : Doc) : UserDoc where
  phone := json.read "phone" Value.asString
  uid := json.read "uid" Value.asString
  name := json.read "name" Value.asString
  avatarUrl := json.read "avatarUrl" Value.asString
  email := json.read "email" Value.asString
  gender := json.read "gender" Value.asString
  balance := json.read "balance" Num.ofValue
  fcmToken := json.read "fcmToken" Value.asString

theorem UserDoc.ofDoc_toDoc (user : UserModel) : ofDoc user.toDoc = user.toJson := by
  simp [ofDoc, UserModel.toDoc, UserModel.toJson, Doc.read, Doc.ofList, Value.asString, Num.ofValue]

/-- `fcmToken` is null when `getToken` returns nothing. -/
def AppUpdate.field : AppUpdate → String × Value
  | .fcmToken _ token => ("fcmToken", (token.map Value.string).getD .null)
  | .avatarUrl _ url => ("avatarUrl", .string url)

theorem UserDoc.ofDoc_set (json : Doc) (m : AppUpdate) :
    ofDoc (json.set m.field.1 m.field.2) = m.onUser (ofDoc json) := by
  cases m with
  | fcmToken uid token =>
    cases token <;> simp [ofDoc, AppUpdate.field, AppUpdate.onUser, Doc.read_set_of_ne, Value.asString]
  | avatarUrl uid url => simp [ofDoc, AppUpdate.field, AppUpdate.onUser, Doc.read_set_of_ne, Value.asString]

theorem UserDoc.ofDoc_credit (json : Doc) (price : ℚ) :
    ofDoc (json.set "balance" (Num.ofJs (currentBalance (ofDoc json) + price)).toValue) =
      (ofDoc json).credit price := by
  simp [ofDoc, UserDoc.credit, Doc.read_set_of_ne]

/-! ## Transactions -/

/-- What `handleOrderCancellation` sets. -/
def TransactionModel.toDoc (r : TransactionModel) : Doc :=
  .ofList [("transaction", .string r.transaction), ("amount", r.amount.toValue), ("dueAt", .timestamp r.dueAt)]

def TransactionModel.fromJson (json : Doc) : Option TransactionModel := do
  let transaction ← json.read "transaction" Value.asString
  let amount ← json.read "amount" Value.asDouble
  let dueAt ← json.read "dueAt" Value.asTimestamp
  return { transaction, amount := .double amount, dueAt }

theorem TransactionModel.fromJson_toDoc (transaction : String) (q : ℚ) (dueAt : Timestamp) :
    fromJson (toDoc ⟨transaction, .double q, dueAt⟩) = some ⟨transaction, .double q, dueAt⟩ := by
  simp [fromJson, toDoc, Doc.read, Num.toValue, Value.asString, Value.asDouble, Value.asTimestamp]

/-! ## Providers -/

structure ProviderModel where
  uid : String
  identity : String
  phone : String
  name : String
  service : String
  avatarUrl : String
  balance : ℚ
  deriving DecidableEq

def ProviderModel.toJson (provider : ProviderModel) : Doc :=
  .ofList [
    ("uid", .string provider.uid),
    ("phone", .string provider.phone),
    ("identity", .string provider.identity),
    ("name", .string provider.name),
    ("service", .string provider.service),
    ("avatarUrl", .string provider.avatarUrl),
    ("balance", .double provider.balance)]

def ProviderDoc.ofDoc (json : Doc) : ProviderDoc where
  fcmToken := json.read "fcmToken" Value.asString

end Sayaaratukcom
