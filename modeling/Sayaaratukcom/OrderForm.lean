import Sayaaratukcom.Forms
import Sayaaratukcom.SelectAddress

/-!
# The form of an order

The button of `OrderService` is on by a flag that takes a latitude of 0 for an
address that has not been chosen. The addresses come from `SelectAddress`, which
may return a point without a text.
-/

namespace Sayaaratukcom

/-- A point and the text of its address, which may be null. -/
abbrev Address := GeoPoint × Option String

structure OrderForm where
  description : String
  vehicle : String
  origin : Address
  destination : Address
  paymentOption : PaymentOption
  active : Bool
  deriving DecidableEq

/-- An edit of a field, or a return from `SelectAddress`: with nothing when the
page is left by its close button, else with a point and a text that may be null. -/
inductive FormEdit where
  | description (text : String)
  | vehicle (text : String)
  | origin (result : Option (Option GeoPoint × Option String))
  | destination (result : Option (Option GeoPoint × Option String))
  | paymentOption (option : PaymentOption)
  deriving DecidableEq

/-- The address that a return brings; nothing, or a null point, is ignored. -/
def picked : Option (Option GeoPoint × Option String) → Option Address
  | some (some p, address) => some (p, address)
  | some (none, _) | none => none

namespace OrderForm

def init : OrderForm where
  description := ""
  vehicle := ""
  origin := (⟨0, 0⟩, some "")
  destination := (⟨0, 0⟩, some "")
  paymentOption := .electronic
  active := false

def updateButton (f : OrderForm) : OrderForm :=
  { f with active := f.vehicle ≠ "" ∧ f.origin.1.latitude ≠ 0 ∧ f.destination.1.latitude ≠ 0 }

def edit (f : OrderForm) : FormEdit → OrderForm
  | .description text => { f with description := text }
  | .vehicle text => { f with vehicle := text }.updateButton
  | .origin result =>
    match picked result with
    | none => f
    | some origin => { f with origin }.updateButton
  | .destination result =>
    match picked result with
    | none => f
    | some destination => { f with destination }.updateButton
  | .paymentOption option => { f with paymentOption := option }

/-- The arguments of the call of `sendOrder`; a null address is not a `String`. -/
def args (f : OrderForm) (service : ServiceModel) : Option OrderArgs := do
  let originAddress ← f.origin.2
  let destinationAddress ← f.destination.2
  return {
    service
    description := f.description
    vehicle := f.vehicle
    originPoint := f.origin.1
    originAddress
    destinationPoint := f.destination.1
    destinationAddress
    paymentOption := f.paymentOption }

end OrderForm

/-! ## What has been entered -/

namespace FormEdit

def vehicle? : FormEdit → Option String
  | .vehicle text => some text
  | .description _ | .origin _ | .destination _ | .paymentOption _ => none

def origin? : FormEdit → Option Address
  | .origin result => picked result
  | .description _ | .vehicle _ | .destination _ | .paymentOption _ => none

def destination? : FormEdit → Option Address
  | .destination result => picked result
  | .description _ | .vehicle _ | .origin _ | .paymentOption _ => none

end FormEdit

open FormEdit

/-- A vehicle is entered, and both addresses have been chosen. -/
def Entered (es : List FormEdit) : Prop :=
  (Runs.last vehicle? es).getD "" ≠ "" ∧ (Runs.last origin? es).isSome ∧ (Runs.last destination? es).isSome

/-- The button is on exactly when everything is entered, and then the call of
`sendOrder` has the arguments that it needs. -/
def SubmitsComplete (service : ServiceModel) (es : List FormEdit) (f : OrderForm) : Prop :=
  (f.active = true ↔ Entered es) ∧ (f.active = true → (f.args service).isSome)

/-- Whatever is entered as a whole has its addresses off the equator, and with
their texts. -/
def UsableAddresses (es : List FormEdit) : Prop :=
  Entered es → ∀ a ∈ [Runs.last origin? es, Runs.last destination? es], ∀ p address, a = some (p, address) →
    p.latitude ≠ 0 ∧ address.isSome

/-! ## The form holds what was entered last -/

namespace OrderForm

def Fresh (f : OrderForm) : Prop := f.updateButton = f

theorem fresh_edit {f : OrderForm} (h : f.Fresh) (e : FormEdit) : (f.edit e).Fresh := by
  have hactive : f.active = decide (f.vehicle ≠ "" ∧ f.origin.1.latitude ≠ 0 ∧ f.destination.1.latitude ≠ 0) :=
    (congrArg OrderForm.active h).symm
  cases e with
  | description text => simp [edit, Fresh, updateButton, hactive]
  | vehicle text => rfl
  | origin result =>
    simp only [edit]
    cases picked result with
    | none => exact h
    | some origin => rfl
  | destination result =>
    simp only [edit]
    cases picked result with
    | none => exact h
    | some destination => rfl
  | paymentOption option => simp [edit, Fresh, updateButton, hactive]

theorem edit_values (f : OrderForm) (e : FormEdit) : (f.edit e).vehicle = e.vehicle?.getD f.vehicle ∧
    (f.edit e).origin = e.origin?.getD f.origin ∧ (f.edit e).destination = e.destination?.getD f.destination := by
  cases e with
  | origin result =>
    simp only [edit, vehicle?, origin?, destination?]
    cases picked result <;> exact ⟨rfl, rfl, rfl⟩
  | destination result =>
    simp only [edit, vehicle?, origin?, destination?]
    cases picked result <;> exact ⟨rfl, rfl, rfl⟩
  | _ => exact ⟨rfl, rfl, rfl⟩

theorem values_foldl (es : List FormEdit) : (es.foldl edit init).vehicle = (Runs.last vehicle? es).getD "" ∧
    (es.foldl edit init).origin = (Runs.last origin? es).getD (⟨0, 0⟩, some "") ∧
    (es.foldl edit init).destination = (Runs.last destination? es).getD (⟨0, 0⟩, some "") :=
  ⟨Runs.foldl_last (fun f e => (edit_values f e).1) es init,
    Runs.foldl_last (fun f e => (edit_values f e).2.1) es init,
    Runs.foldl_last (fun f e => (edit_values f e).2.2) es init⟩

theorem active_iff (es : List FormEdit) : (es.foldl edit init).active = true ↔
    (Runs.last vehicle? es).getD "" ≠ "" ∧
      ((Runs.last origin? es).getD (⟨0, 0⟩, some "")).1.latitude ≠ 0 ∧
      ((Runs.last destination? es).getD (⟨0, 0⟩, some "")).1.latitude ≠ 0 := by
  have hf : (es.foldl edit init).Fresh :=
    List.foldlRecOn es edit (show init.updateButton = init by decide) fun f hf e _ => fresh_edit hf e
  obtain ⟨hv, ho, hd⟩ := values_foldl es
  rw [← hf, ← hv, ← ho, ← hd]
  exact decide_eq_true_iff

theorem args_isSome (f : OrderForm) (service : ServiceModel) :
    (f.args service).isSome ↔ f.origin.2.isSome ∧ f.destination.2.isSome := by
  unfold args
  cases f.origin.2 <;> cases f.destination.2 <;> simp

end OrderForm

/-- After any edits: the button is on exactly when everything is entered, for a
call with all its arguments, exactly if the addresses are usable. -/
theorem orderForm_submits_iff (service : ServiceModel) (es : List FormEdit) :
    SubmitsComplete service es (es.foldl OrderForm.edit .init) ↔ UsableAddresses es := by
  obtain ⟨-, ho, hd⟩ := OrderForm.values_foldl es
  rw [SubmitsComplete, UsableAddresses, Entered, OrderForm.args_isSome, OrderForm.active_iff, ho, hd]
  by_cases hv : (Runs.last vehicle? es).getD "" = ""
  · simp [hv]
  cases Runs.last origin? es with
  | none => simp
  | some origin =>
    cases Runs.last destination? es with
    | none => simp
    | some destination =>
      obtain ⟨p, address⟩ := origin
      obtain ⟨q, address'⟩ := destination
      by_cases hp : p.latitude = 0
      · simp [hv, hp]
      by_cases hq : q.latitude = 0
      · simp [hv, hq]
      simp [hv, hp, hq]

/-- `SelectAddress` is confirmed before the geocoder has answered, once for each
address: the button is on, and the call has a null for a `String`. -/
theorem null_address_submitted : ∃ s s', Runs.run AddressState.step .init [.located (some ⟨24, 46⟩)] = some s ∧
    Runs.run AddressState.step .init [.located (some ⟨24, 46⟩), .tap ⟨21, 39⟩] = some s' ∧
    ¬ SubmitsComplete demoArgs.service
      [.vehicle "سيدان", .origin (some s.confirm), .destination (some s'.confirm)]
      ([FormEdit.vehicle "سيدان", .origin (some s.confirm), .destination (some s'.confirm)].foldl
        OrderForm.edit .init) := by
  refine ⟨_, _, rfl, rfl, fun h => ?_⟩
  have hargs := h.2 (by decide +kernel)
  revert hargs
  decide +kernel

/-- Both addresses are chosen, one of them on the equator: the button stays off. -/
theorem equator_not_submitted : ¬ SubmitsComplete demoArgs.service
    [.vehicle "سيدان", .origin (some (some ⟨0, 32⟩, some "أ")), .destination (some (some ⟨21, 39⟩, some "ب"))]
    ([FormEdit.vehicle "سيدان", .origin (some (some ⟨0, 32⟩, some "أ")),
      .destination (some (some ⟨21, 39⟩, some "ب"))].foldl OrderForm.edit .init) := by
  intro h
  have hactive := h.1.mpr ⟨by decide +kernel, by decide +kernel, by decide +kernel⟩
  revert hactive
  decide +kernel

end Sayaaratukcom
