import Sayaaratukcom.Lib.Runs
import Sayaaratukcom.Models

/-!
# Choosing an address

`SelectAddress` keeps one point and one text. The device location, a tap and
the details of a place each replace the point when they arrive and send a
request to the geocoder; each answer replaces the text, whatever point it is
for.
-/

namespace Sayaaratukcom

structure Placemark where
  name : Option String
  locality : Option String
  country : Option String
  deriving DecidableEq

def Placemark.text (place : Placemark) : String :=
  place.name.getD "null" ++ ", " ++ place.locality.getD "null" ++ ", " ++ place.country.getD "null"

structure AddressState where
  selectedPoint : Option GeoPoint
  selectedAddress : Option String
  locating : Bool
  searching : List GeoPoint
  geocoding : List GeoPoint

inductive AddressEvent where
  | located (p : Option GeoPoint) -- none without the permission
  | tap (p : GeoPoint)
  | search (p : GeoPoint) -- as `getPlaceLatLng` gives it, (0, 0) for a place without geometry
  | placeDetails (p : GeoPoint) (fails : Bool)
  | geocoded (p : GeoPoint) (placemarks : Option (List Placemark)) -- none when the request fails

namespace AddressState

def init : AddressState := ⟨none, none, true, [], []⟩

def select (s : AddressState) (p : GeoPoint) : AddressState :=
  { s with selectedPoint := some p, geocoding := p :: s.geocoding }

def step (s : AddressState) : AddressEvent → Option AddressState
  | .located p =>
    if s.locating then
      let s := { s with locating := false }
      some (match p with | none => s | some p => s.select p)
    else none
  -- without a point there is no map to tap on
  | .tap p => if s.selectedPoint.isSome then some (s.select p) else none
  | .search p => some { s with searching := p :: s.searching }
  | .placeDetails p fails =>
    if p ∈ s.searching then
      let s := { s with searching := s.searching.erase p }
      some (if fails then s else s.select p)
    else none
  | .geocoded p placemarks =>
    if p ∈ s.geocoding then
      let s := { s with geocoding := s.geocoding.erase p }
      -- `placemarks[0]` throws on an empty list
      match placemarks.bind List.head? with
      | none => some s
      | some place => some { s with selectedAddress := some place.text }
    else none

def confirm (s : AddressState) : Option GeoPoint × Option String := (s.selectedPoint, s.selectedAddress)

end AddressState

/-! ## What was chosen, and what has arrived -/

namespace AddressEvent

def chosen : AddressEvent → Option GeoPoint
  | .tap p | .search p => some p
  | .located _ | .placeDetails _ _ | .geocoded _ _ => none

def location : AddressEvent → Option GeoPoint
  | .located p => p
  | .tap _ | .search _ | .placeDetails _ _ | .geocoded _ _ => none

def arrived : AddressEvent → Option GeoPoint
  | .located p => p
  | .tap p => some p
  | .placeDetails p fails => if fails then none else some p
  | .search _ | .geocoded _ _ => none

def answer : AddressEvent → Option (GeoPoint × String)
  | .geocoded p placemarks => (placemarks.bind List.head?).map fun place => (p, place.text)
  | .located _ | .tap _ | .search _ | .placeDetails _ _ => none

end AddressEvent

open AddressEvent

/-- The point the user has chosen last, or else the location of the device. -/
def wanted (es : List AddressEvent) : Option GeoPoint := (Runs.last chosen es).or (Runs.last location es)

/-- The pair has the point that is wanted, and no address but one that the
geocoder has given for it. -/
structure Belongs (es : List AddressEvent) (r : Option GeoPoint × Option String) : Prop where
  point : r.1 = wanted es
  address : ∀ a, r.2 = some a → ∃ p, r.1 = some p ∧ (p, a) ∈ es.filterMap answer

/-- The point that has arrived last is the one that is wanted, and the text that
the geocoder has given last is also one for this point. -/
def ArrivesInOrder (es : List AddressEvent) : Prop :=
  Runs.last arrived es = wanted es ∧
    ∀ q a, Runs.last answer es = some (q, a) → ∃ p, wanted es = some p ∧ (p, a) ∈ es.filterMap answer

section
variable {s s' : AddressState} {e : AddressEvent}

theorem confirm_step (h : s.step e = some s') :
    s'.selectedPoint = e.arrived.or s.selectedPoint ∧
      s'.selectedAddress = (e.answer.map Prod.snd).or s.selectedAddress := by
  cases e with
  | located p =>
    obtain ⟨-, rfl⟩ := Option.ite_some_none_eq_some.mp h
    cases p <;> exact ⟨rfl, rfl⟩
  | tap p =>
    obtain ⟨-, rfl⟩ := Option.ite_some_none_eq_some.mp h
    exact ⟨rfl, rfl⟩
  | search p =>
    obtain rfl := Option.some.inj h
    exact ⟨rfl, rfl⟩
  | placeDetails p fails =>
    obtain ⟨-, rfl⟩ := Option.ite_some_none_eq_some.mp h
    cases fails <;> exact ⟨rfl, rfl⟩
  | geocoded p placemarks =>
    obtain ⟨-, h⟩ := Option.ite_none_right_eq_some.mp h
    split at h
    · rename_i hp
      obtain rfl := Option.some.inj h
      simp [arrived, answer, hp]
    · rename_i place hp
      obtain rfl := Option.some.inj h
      simp [arrived, answer, hp]

theorem confirm_run {es : List AddressEvent} (h : Runs.run AddressState.step .init es = some s) :
    s.confirm = (Runs.last arrived es, (Runs.last answer es).map Prod.snd) := by
  have hp := Runs.run_last (g := arrived) (fun _ _ _ hs => (confirm_step hs).1) h
  have ha := Runs.run_last (g := fun e => e.answer.map Prod.snd) (fun _ _ _ hs => (confirm_step hs).2) h
  rw [AddressState.confirm, hp, ha, Runs.last_map]
  simp [AddressState.init]

end

/-- The confirmed pair belongs together exactly when everything has arrived in
order. -/
theorem confirm_belongs_iff {es : List AddressEvent} {s : AddressState}
    (h : Runs.run AddressState.step .init es = some s) : Belongs es s.confirm ↔ ArrivesInOrder es := by
  rw [confirm_run h]
  constructor
  · intro hb
    refine ⟨hb.point, fun q a hq => ?_⟩
    obtain ⟨p, hp, hmem⟩ := hb.address a (by rw [hq]; rfl)
    exact ⟨p, hb.point.symm.trans hp, hmem⟩
  · intro ho
    obtain ⟨hpoint, hans⟩ := ho
    refine ⟨hpoint, fun a ha => ?_⟩
    obtain ⟨⟨q, a'⟩, hq, rfl⟩ := Option.map_eq_some_iff.mp ha
    obtain ⟨p, hp, hmem⟩ := hans q a' hq
    exact ⟨p, hpoint.trans hp, hmem⟩

def demoPlacemark (name : String) : Placemark := ⟨some name, some "الرياض", some "السعودية"⟩

/-- The location, and then a tap whose answer comes last. -/
def demoAddress : List AddressEvent :=
  [.located (some ⟨24, 46⟩), .tap ⟨25, 47⟩, .geocoded ⟨24, 46⟩ (some [demoPlacemark "أ"]),
   .geocoded ⟨25, 47⟩ (some [demoPlacemark "ب"])]

theorem demo_confirm_belongs : ∃ s, Runs.run AddressState.step .init demoAddress = some s ∧
    (Belongs demoAddress s.confirm ↔ ArrivesInOrder demoAddress) := by
  have h : (Runs.run AddressState.step .init demoAddress).isSome := by decide +kernel
  obtain ⟨s, hs⟩ := Option.isSome_iff_exists.mp h
  exact ⟨s, hs, confirm_belongs_iff hs⟩

/-- The two answers the other way round: the point of the tap is confirmed with
the address of the location. -/
def demoStaleAddress : List AddressEvent :=
  [.located (some ⟨24, 46⟩), .tap ⟨25, 47⟩, .geocoded ⟨25, 47⟩ (some [demoPlacemark "ب"]),
   .geocoded ⟨24, 46⟩ (some [demoPlacemark "أ"])]

theorem stale_address_confirmed : ∃ s, Runs.run AddressState.step .init demoStaleAddress = some s ∧
    s.confirm = (some ⟨25, 47⟩, some (demoPlacemark "أ").text) ∧ ¬ Belongs demoStaleAddress s.confirm := by
  have h : (Runs.run AddressState.step .init demoStaleAddress).map AddressState.confirm =
      some (some ⟨25, 47⟩, some (demoPlacemark "أ").text) := by decide +kernel
  obtain ⟨s, hs, hc⟩ := Option.map_eq_some_iff.mp h
  refine ⟨s, hs, hc, fun hb => ?_⟩
  rw [hc] at hb
  obtain ⟨p, hp, hmem⟩ := hb.address _ rfl
  obtain rfl := Option.some.inj hp
  revert hmem
  decide +kernel

end Sayaaratukcom
