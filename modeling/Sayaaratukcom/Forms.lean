import Sayaaratukcom.Json
import Sayaaratukcom.SendOrder

/-!
# Forms

`sendOrder`, `requestSupport` and `registerProvider` await one `set` inside a
`try` block and leave the form after it, whether or not an error has been
caught. Only `cancelOrder` and `acceptOffer` leave inside the block.
-/

namespace Sayaaratukcom

open Documents (Doc Collection)

/-! ## What is submitted -/

structure OrderArgs where
  service : ServiceModel
  description : String
  vehicle : String
  originPoint : GeoPoint
  originAddress : String
  destinationPoint : GeoPoint
  destinationAddress : String
  paymentOption : PaymentOption
  deriving DecidableEq

def newOrder (id uid : String) (now : Timestamp) (args : OrderArgs) : OrderModel where
  id := id
  offerId := ""
  service := args.service
  user := uid
  createdAt := now
  description := args.description
  vehicle := args.vehicle
  originPoint := args.originPoint
  originAddress := args.originAddress
  destinationPoint := args.destinationPoint
  destinationAddress := args.destinationAddress
  paymentOption := args.paymentOption
  status := .awaitingOffers

structure SupportArgs where
  title : String
  message : String
  deriving DecidableEq

def newRequest (uid : String) (now : Timestamp) (args : SupportArgs) : SupportModel where
  title := args.title
  message := args.message
  uid := uid
  sentAt := now

structure ProviderArgs where
  phone : String
  identity : String
  name : String
  service : String
  deriving DecidableEq

def newProvider (uid : String) (args : ProviderArgs) : ProviderModel where
  uid := uid
  phone := args.phone
  identity := args.identity
  name := args.name
  service := args.service
  balance := 0
  avatarUrl := ""

/-! ## Submitting -/

inductive FormRoute (α : Type) where
  | under
  | form (input : α) (loading : Bool)
  | orderPage (order : OrderModel)
  deriving DecidableEq

/-- The collection that a form writes, and the pages on the screen. -/
structure FormState (α : Type) where
  docs : Collection
  routes : List (FormRoute α)
  effects : List Effect

namespace FormState

variable {α : Type}

def pop (s : FormState α) : FormState α :=
  { s with routes := s.routes.tail, effects := s.effects ++ [.navigatorPop] }

def push (s : FormState α) (order : OrderModel) : FormState α := { s with routes := .orderPage order :: s.routes }

/-- The awaited `set` in its `try` block; a write to an empty id is refused. -/
def trySet (s : FormState α) (fails : Bool) (id : String) (doc : Doc) : FormState α :=
  if fails = true ∨ id = "" then { s with effects := s.effects ++ [.log, .snackBar] }
  else { s with docs := s.docs.set id doc }

/-- The button of a form sets `_loading` and makes the call; it is off while
`_loading` is set. -/
def press (s : FormState α) (call : α → FormState α → FormState α) : Option (FormState α) :=
  match s.routes with
  | .form input false :: below => some (call input { s with routes := .form input true :: below })
  | _ => none

end FormState

def sendOrder (fails : Bool) (id uid : String) (now : Timestamp) (args : OrderArgs) (s : FormState OrderArgs) :
    FormState OrderArgs :=
  let order := newOrder id uid now args
  ((s.trySet fails id order.toJson).pop).push order

def requestSupport (fails : Bool) (id uid : String) (now : Timestamp) (args : SupportArgs)
    (s : FormState SupportArgs) : FormState SupportArgs :=
  (s.trySet fails id (newRequest uid now args).toJson).pop

/-- The reference to `uid` is made before the `try` block. -/
def registerProvider (asserts fails : Bool) (uid : String) (args : ProviderArgs) (s : FormState ProviderArgs) :
    FormState ProviderArgs :=
  if asserts = true ∧ uid = "" then { s with effects := s.effects ++ [.uncaughtError] }
  else (s.trySet fails uid (newProvider uid args).toJson).pop

/-! ## When a form closes -/

section
variable {α : Type}

/-- The form has been closed, with `opened` shown in its place, exactly when its
document is stored; when the write has failed the form is there, with its input
and a button that is on. -/
structure ClosesWhenStored (input : α) (opened below : List (FormRoute α)) (id : String) (doc : Doc)
    (failed : Prop) (s : FormState α) : Prop where
  closed_iff : s.routes = opened ++ below ↔ s.docs.get id = some doc
  stays : failed → s.routes = .form input false :: below

variable {input : α} {opened below : List (FormRoute α)} {id : String} {doc : Doc} {fails : Bool}

theorem closes_iff_of_closed {s s' : FormState α} (hroutes : s'.routes = opened ++ below)
    (hdocs : s'.docs = (s.trySet fails id doc).docs) (hne : opened ++ below ≠ .form input false :: below) :
    ClosesWhenStored input opened below id doc (fails = true ∨ id = "") s' ↔ ¬ (fails = true ∨ id = "") := by
  constructor
  · intro h hfails
    exact hne (hroutes.symm.trans (h.stays hfails))
  · intro hfails
    refine ⟨iff_of_true hroutes ?_, fun h => absurd h hfails⟩
    rw [hdocs, FormState.trySet, if_neg hfails]
    exact Collection.get_set_self

theorem not_closes_of_loading {s : FormState α} {failed : Prop} (hroutes : s.routes = .form input true :: below)
    (hf : failed) : ¬ ClosesWhenStored input opened below id doc failed s := by
  intro h
  have hr := hroutes.symm.trans (h.stays hf)
  simp at hr

@[simp] theorem routes_trySet (s : FormState α) : (s.trySet fails id doc).routes = s.routes := by
  unfold FormState.trySet
  split <;> rfl

theorem below_ne : [] ++ below ≠ .form input false :: below := by
  intro h
  have hl := congrArg List.length h
  simp at hl

end

/-- Each of the three forms closes exactly when its document is stored, and
stays when it is not, if and only if the write succeeds. -/
theorem form_closes_iff (docs : Collection) (effects : List Effect) (asserts fails : Bool) (id uid : String)
    (now : Timestamp) :
    (∀ (args : OrderArgs) below, ∃ s, FormState.press ⟨docs, .form args false :: below, effects⟩
        (sendOrder fails id uid now) = some s ∧
      (ClosesWhenStored args [.orderPage (newOrder id uid now args)] below id (newOrder id uid now args).toJson
        (fails = true ∨ id = "") s ↔ ¬ (fails = true ∨ id = ""))) ∧
    (∀ (args : SupportArgs) below, ∃ s, FormState.press ⟨docs, .form args false :: below, effects⟩
        (requestSupport fails id uid now) = some s ∧
      (ClosesWhenStored args [] below id (newRequest uid now args).toJson (fails = true ∨ id = "") s ↔
        ¬ (fails = true ∨ id = ""))) ∧
    (∀ (args : ProviderArgs) below, ∃ s, FormState.press ⟨docs, .form args false :: below, effects⟩
        (registerProvider asserts fails uid) = some s ∧
      (ClosesWhenStored args [] below uid (newProvider uid args).toJson (fails = true ∨ uid = "") s ↔
        ¬ (fails = true ∨ uid = ""))) := by
  refine ⟨fun args below => ⟨_, rfl, ?_⟩, fun args below => ⟨_, rfl, ?_⟩, fun args below => ⟨_, rfl, ?_⟩⟩
  · refine closes_iff_of_closed (s := ⟨docs, .form args true :: below, effects⟩) ?_ rfl (by simp)
    simp [sendOrder, FormState.pop, FormState.push]
  · refine closes_iff_of_closed (s := ⟨docs, .form args true :: below, effects⟩) ?_ rfl below_ne
    simp [requestSupport, FormState.pop]
  · unfold registerProvider
    split
    · rename_i h
      exact iff_of_false (not_closes_of_loading rfl (Or.inr h.2)) (not_not_intro (Or.inr h.2))
    · refine closes_iff_of_closed (s := ⟨docs, .form args true :: below, effects⟩) ?_ rfl below_ne
      simp [FormState.pop]

def demoArgs : OrderArgs where
  service := ⟨"سطحة", "تحتاج تنقل سيارتك لأي مكان؟", "assets/images/services/transport.png"⟩
  description := ""
  vehicle := "سيدان"
  originPoint := ⟨24, 46⟩
  originAddress := "الرياض"
  destinationPoint := ⟨21, 39⟩
  destinationAddress := "جدة"
  paymentOption := .electronic

/-- The write fails: the form is closed, and the page of an order is shown that
does not exist. -/
theorem failed_order_shown : ∃ s, FormState.press ⟨Collection.empty, [.form demoArgs false, .under], []⟩
      (sendOrder true "o" "u" 0) = some s ∧
    ¬ ClosesWhenStored demoArgs [.orderPage (newOrder "o" "u" 0 demoArgs)] [.under] "o"
      (newOrder "o" "u" 0 demoArgs).toJson (true = true ∨ "o" = "") s ∧
    s.routes = [.orderPage (newOrder "o" "u" 0 demoArgs), .under] ∧ s.docs.get "o" = none := by
  refine ⟨_, rfl, fun h => ?_, rfl, rfl⟩
  have hr := h.stays (Or.inl rfl)
  revert hr
  decide

end Sayaaratukcom
