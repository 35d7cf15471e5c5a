import Sayaaratukcom.Lib.Navigator
import Sayaaratukcom.OrderForm
import Sayaaratukcom.Session

/-!
# The pages of the forms

`OrderService`, `Support` and `WorkWithUs` are edited, send their form once, and can
be left by the back button at any time, also while the call is under way. A menu or a
`SelectAddress` page may be open over the form when the call ends, and its pop then
takes that page instead.
-/

namespace Sayaaratukcom

open Documents (Doc Collection)

/-! ## The three forms -/

structure SupportForm where
  title : String
  message : String
  active : Bool
  deriving DecidableEq

inductive SupportEdit where
  | title (text : String)
  | message (text : String)
  deriving DecidableEq

namespace SupportForm

def init : SupportForm := ⟨"", "", false⟩

def updateButton (f : SupportForm) : SupportForm := { f with active := f.title ≠ "" ∧ f.message ≠ "" }

def edit (f : SupportForm) : SupportEdit → SupportForm
  | .title text => { f with title := text }.updateButton
  | .message text => { f with message := text }.updateButton

def args (f : SupportForm) : SupportArgs := ⟨f.title, f.message⟩

end SupportForm

/-- The field of the phone is read-only. -/
structure WorkForm where
  name : String
  identity : String
  phone : String
  selectedService : String
  active : Bool
  deriving DecidableEq

inductive WorkEdit where
  | name (text : String)
  | identity (text : String)
  | selectedService (value : String)
  deriving DecidableEq

namespace WorkForm

def init (phone : String) : WorkForm := ⟨"", "", phone, "فحص", false⟩

def updateButton (f : WorkForm) : WorkForm := { f with active := f.phone ≠ "" }

def items : List String := ["فحص", "إطارات", "سطحة", "المفاتيح", "غسيل", "ورشة"]

def edit (f : WorkForm) : WorkEdit → WorkForm
  | .name text => { f with name := text }.updateButton
  | .identity text => { f with identity := text }.updateButton
  | .selectedService value => if value ∈ items then { f with selectedService := value } else f

def args (f : WorkForm) : ProviderArgs := ⟨f.phone, f.identity, f.name, f.selectedService⟩

end WorkForm

/-- What a page does with a form of type `φ`: `call` gives the document that the call
sets, or nothing when it throws before its `try` block. -/
structure FormKind (φ ε : Type) where
  init : φ
  edit : φ → ε → φ
  active : φ → Bool
  call : φ → String → Timestamp → Option (String × Doc)
  opensOrder : Bool

def supportKind (uid : String) : FormKind SupportForm SupportEdit where
  init := .init
  edit := .edit
  active := SupportForm.active
  call f id now := some (id, (newRequest uid now f.args).toJson)
  opensOrder := false

def workKind (asserts : Bool) (uid phone : String) : FormKind WorkForm WorkEdit where
  init := .init phone
  edit := .edit
  active := WorkForm.active
  call f _ _ := if asserts = true ∧ uid = "" then none else some (uid, (newProvider uid f.args).toJson)
  opensOrder := false

def orderKind (service : ServiceModel) (uid : String) : FormKind OrderForm FormEdit where
  init := .init
  edit := .edit
  active := OrderForm.active
  call f id now := (f.args service).map fun args => (id, (newOrder id uid now args).toJson)
  opensOrder := true

/-! ## A page on the screen -/

inductive FormScreen where
  | form
  | overlay -- a menu, or `SelectAddress`
  | orderPage
  | below (page : Page)
  deriving DecidableEq

structure FormPage (φ : Type) where
  docs : Collection
  navigator : Navigator FormScreen
  fields : φ
  loading : Bool
  pending : Option (String × Doc) -- what a call under way is to set

inductive FormPageEvent (ε : Type) where
  | edit (e : ε)
  | openOverlay
  | closeOverlay (e : Option ε)
  /-- `id` and `now` are what `doc()` and `Timestamp.now()` give. -/
  | press (id : String) (now : Timestamp)
  | back
  | settle (r : FormScreen) -- it has left the screen
  | answer (fails : Bool)
  deriving DecidableEq

namespace FormPageEvent

variable {ε : Type}

def edits : FormPageEvent ε → List ε
  | .edit e => [e]
  | .closeOverlay e => e.toList
  | .openOverlay | .press _ _ | .back | .settle _ | .answer _ => []

def isPress : FormPageEvent ε → Bool
  | .press _ _ => true
  | .edit _ | .openOverlay | .closeOverlay _ | .back | .settle _ | .answer _ => false

end FormPageEvent

def FormPage.base (below : List Page) : List FormScreen := .below .navigation :: below.map .below

namespace FormKind

variable {φ ε : Type} (k : FormKind φ ε)

def opened (docs : Collection) (below : List Page) : FormPage φ :=
  ⟨docs, ⟨.form :: FormPage.base below, []⟩, k.init, false, none⟩

/-- The end of the call: the pop for the page throws when the page is not mounted. -/
def close (n : Navigator FormScreen) : Navigator FormScreen :=
  match n.popFrom .form with
  | none => n
  | some n => if k.opensOrder then n.push .orderPage else n

def step (s : FormPage φ) : FormPageEvent ε → Option (FormPage φ)
  | .edit e =>
    if s.navigator.routes.head? = some .form then some { s with fields := k.edit s.fields e } else none
  | .openOverlay =>
    if s.navigator.routes.head? = some .form then some { s with navigator := s.navigator.push .overlay } else none
  | .closeOverlay e =>
    if s.navigator.routes.head? = some .overlay then
      some { s with navigator := s.navigator.pop, fields := e.toList.foldl k.edit s.fields }
    else none
  | .press id now =>
    if s.navigator.routes.head? = some .form ∧ k.active s.fields = true ∧ s.loading = false then
      some { s with loading := true, pending := k.call s.fields id now }
    else none
  | .back =>
    match s.navigator.routes.head? with
    | some .form | some .overlay | some .orderPage => some { s with navigator := s.navigator.pop }
    | some (.below _) | none => none
  | .settle r => (s.navigator.settle r).map fun navigator => { s with navigator }
  | .answer fails =>
    match s.pending with
    | none => none
    | some (id, doc) =>
      let docs := if fails = true ∨ id = "" then s.docs else s.docs.set id doc
      some { s with docs, pending := none, navigator := k.close s.navigator }

theorem run_press_answer {s : FormPage φ} {id : String} {now : Timestamp} {fails : Bool} {p : String × Doc}
    (htop : s.navigator.routes.head? = some .form) (ha : k.active s.fields = true) (hl : s.loading = false)
    (hp : k.call s.fields id now = some p) :
    Runs.run k.step s [.press id now, .answer fails] = some { s with
      loading := true
      pending := none
      docs := if fails = true ∨ p.1 = "" then s.docs else s.docs.set p.1 p.2
      navigator := k.close s.navigator } := by
  simp [Runs.run, step, htop, ha, hl, hp]

/-! ## What is sent -/

def entered (es : List (FormPageEvent ε)) : φ := (es.flatMap FormPageEvent.edits).foldl k.edit k.init

/-- The document is that of the call which a press of the run has made, for the form as
it was entered by then. -/
def Sent (es : List (FormPageEvent ε)) (p : String × Doc) : Prop :=
  ∃ es₁ id now es₂, es = es₁ ++ .press id now :: es₂ ∧ k.active (k.entered es₁) = true ∧
    k.call (k.entered es₁) id now = some p

def SendsOnce (docs : Collection) (es : List (FormPageEvent ε)) (s : FormPage φ) : Prop :=
  es.countP FormPageEvent.isPress ≤ 1 ∧
    (s.docs = docs ∨ ∃ p, k.Sent es p ∧ s.docs = docs.set p.1 p.2)

structure Kept (docs : Collection) (s : FormPage φ) (es : List (FormPageEvent ε)) : Prop where
  fields : s.fields = k.entered es
  presses : es.countP FormPageEvent.isPress = if s.loading then 1 else 0
  idle : s.loading = false → s.pending = none ∧ s.docs = docs
  pending : ∀ p ∈ s.pending, s.docs = docs ∧ k.Sent es p
  docs : s.docs = docs ∨ ∃ p, k.Sent es p ∧ s.docs = docs.set p.1 p.2

section
variable {k} {docs : Collection} {s s' : FormPage φ} {es : List (FormPageEvent ε)} {e : FormPageEvent ε}
  {p : String × Doc}

theorem Sent.snoc (h : k.Sent es p) : k.Sent (es ++ [e]) p := by
  obtain ⟨es₁, id, now, es₂, rfl, h⟩ := h
  exact ⟨es₁, id, now, es₂ ++ [e], by simp, h⟩

theorem entered_snoc : k.entered (es ++ [e]) = e.edits.foldl k.edit (k.entered es) := by
  simp [entered, List.flatMap_append]

/-- An event that is neither the press nor the answer of the call. -/
theorem Kept.other (h : k.Kept docs s es) (hp : e.isPress = false) (hf : s'.fields = e.edits.foldl k.edit s.fields)
    (hl : s'.loading = s.loading) (hs : s'.pending = s.pending) (hd : s'.docs = s.docs) :
    k.Kept docs s' (es ++ [e]) where
  fields := by rw [hf, entered_snoc, h.fields]
  presses := by simp [List.countP_append, hp, hl, h.presses]
  idle hidle := by rw [hs, hd]; exact h.idle (hl.symm.trans hidle)
  pending p hp := by
    rw [hs] at hp
    rw [hd]
    exact ⟨(h.pending p hp).1, (h.pending p hp).2.snoc⟩
  docs := by
    rw [hd]
    exact h.docs.imp_right fun ⟨p, hsent, hset⟩ => ⟨p, hsent.snoc, hset⟩

theorem kept_step (h : k.Kept docs s es) (hs : k.step s e = some s') : k.Kept docs s' (es ++ [e]) := by
  cases e with
  | edit e =>
    obtain ⟨-, rfl⟩ := Option.ite_some_none_eq_some.mp hs
    exact h.other rfl rfl rfl rfl rfl
  | openOverlay =>
    obtain ⟨-, rfl⟩ := Option.ite_some_none_eq_some.mp hs
    exact h.other rfl rfl rfl rfl rfl
  | closeOverlay e =>
    obtain ⟨-, rfl⟩ := Option.ite_some_none_eq_some.mp hs
    exact h.other rfl rfl rfl rfl rfl
  | back =>
    simp only [step] at hs
    split at hs
    · exact Option.some.inj hs ▸ h.other rfl rfl rfl rfl rfl
    · exact Option.some.inj hs ▸ h.other rfl rfl rfl rfl rfl
    · exact Option.some.inj hs ▸ h.other rfl rfl rfl rfl rfl
    · cases hs
    · cases hs
  | settle r =>
    obtain ⟨n, -, rfl⟩ := Option.map_eq_some_iff.mp hs
    exact h.other rfl rfl rfl rfl rfl
  | press id now =>
    obtain ⟨⟨-, hact, hl⟩, rfl⟩ := Option.ite_some_none_eq_some.mp hs
    obtain ⟨hnone, hdocs⟩ := h.idle hl
    refine ⟨?_, ?_, fun hidle => (nomatch hidle), fun p hp => ⟨hdocs, ?_⟩, Or.inl hdocs⟩
    · rw [entered_snoc]
      exact h.fields
    · rw [List.countP_append, h.presses, hl]
      rfl
    · rw [h.fields] at hact hp
      exact ⟨es, id, now, [], rfl, hact, hp⟩
  | answer fails =>
    simp only [step] at hs
    split at hs
    · cases hs
    · rename_i id doc hpend
      obtain rfl := Option.some.inj hs
      obtain ⟨hdocs, hsent⟩ := h.pending (id, doc) hpend
      have hl : s.loading = true := by
        by_contra hl
        rw [(h.idle (Bool.eq_false_iff.mpr hl)).1] at hpend
        cases hpend
      refine ⟨?_, ?_, fun hidle => ?_, fun p hp => (nomatch hp), ?_⟩
      · rw [entered_snoc]
        exact h.fields
      · rw [List.countP_append, h.presses]
        rfl
      · rw [hl] at hidle
        cases hidle
      · dsimp only
        split
        · exact Or.inl hdocs
        · exact Or.inr ⟨_, hsent.snoc, by rw [hdocs]⟩

theorem entered_inv {P : φ → Prop} (h0 : P k.init) (h : ∀ f e, P f → P (k.edit f e)) (es : List (FormPageEvent ε)) :
    P (k.entered es) :=
  List.foldlRecOn _ k.edit h0 fun f hf e _ => h f e hf

theorem sendsOnce_run {below : List Page} (h : Runs.run k.step (k.opened docs below) es = some s) :
    k.SendsOnce docs es s := by
  have hinit : k.Kept docs (k.opened docs below) [] :=
    ⟨rfl, rfl, fun _ => ⟨rfl, rfl⟩, fun p hp => (nomatch hp), Or.inl rfl⟩
  have hk : k.Kept docs s es := Runs.run_history (fun _ _ _ _ h hs => kept_step h hs) hinit h
  refine ⟨?_, hk.docs⟩
  rw [hk.presses]
  split <;> simp

end

end FormKind

/-- Each of the three pages sends its form at most once, as it was entered when the
button was pressed, whatever is edited or left before the call ends. -/
theorem forms_send_once (docs : Collection) (below : List Page) (asserts : Bool) (uid phone : String)
    (service : ServiceModel) :
    (∀ es s, Runs.run (supportKind uid).step ((supportKind uid).opened docs below) es = some s →
      (supportKind uid).SendsOnce docs es s) ∧
    (∀ es s,
      Runs.run (workKind asserts uid phone).step ((workKind asserts uid phone).opened docs below) es = some s →
      (workKind asserts uid phone).SendsOnce docs es s) ∧
    ∀ es s, Runs.run (orderKind service uid).step ((orderKind service uid).opened docs below) es = some s →
      (orderKind service uid).SendsOnce docs es s :=
  ⟨fun _ _ h => FormKind.sendsOnce_run h, fun _ _ h => FormKind.sendsOnce_run h,
    fun _ _ h => FormKind.sendsOnce_run h⟩

def demoRequest : List (FormPageEvent SupportEdit) :=
  [.edit (.title "تأخر"), .edit (.message "لم يصل مزود الخدمة"), .press "r" 5, .back, .answer false]

theorem demo_sent_once : ∃ s,
    Runs.run (supportKind "u").step ((supportKind "u").opened .empty []) demoRequest = some s ∧
    (s.docs.get "r").isSome ∧ (supportKind "u").SendsOnce .empty demoRequest s := by
  have h : (Runs.run (supportKind "u").step ((supportKind "u").opened .empty []) demoRequest).map
      (fun s => (s.docs.get "r").isSome) = some true := by decide +kernel
  obtain ⟨s, hs, hstored⟩ := Option.map_eq_some_iff.mp h
  exact ⟨s, hs, hstored, (forms_send_once .empty [] false "u" "" demoArgs.service).1 _ s hs⟩

/-! ## What a button asks for -/

theorem SupportForm.edit_complete (f : SupportForm) (e : SupportEdit) :
    (f.edit e).active = true → (f.edit e).title ≠ "" ∧ (f.edit e).message ≠ "" := by
  cases e <;> exact of_decide_eq_true

/-- The button of `WorkWithUs` asks for nothing that is entered. -/
structure WorkForm.Applies (phone : String) (f : WorkForm) : Prop where
  given : f.phone = phone
  offered : f.selectedService ∈ items
  numbered : f.active = true → phone ≠ ""

theorem WorkForm.applies_init (phone : String) : (init phone).Applies phone :=
  ⟨rfl, by simp [init, items], fun ha => nomatch ha⟩

theorem WorkForm.applies_edit {phone : String} {f : WorkForm} (h : f.Applies phone) (e : WorkEdit) :
    (f.edit e).Applies phone := by
  have hupdate : ∀ {f : WorkForm}, f.phone = phone → f.selectedService ∈ items → f.updateButton.Applies phone :=
    fun hp hs => ⟨hp, hs, fun ha => hp ▸ of_decide_eq_true ha⟩
  cases e with
  | name text => exact hupdate h.given h.offered
  | identity text => exact hupdate h.given h.offered
  | selectedService value =>
    simp only [edit]
    split
    · rename_i hmem
      exact ⟨h.given, hmem, h.numbered⟩
    · exact h

theorem OrderForm.complete_of_fresh {f : OrderForm} (h : f.Fresh) (ha : f.active = true) :
    f.vehicle ≠ "" ∧ f.origin.1.latitude ≠ 0 ∧ f.destination.1.latitude ≠ 0 := by
  rw [← h] at ha
  exact of_decide_eq_true ha

theorem OrderForm.args_eq_some {f : OrderForm} {service : ServiceModel} {args : OrderArgs}
    (h : f.args service = some args) : args.service = service ∧ args.vehicle = f.vehicle ∧
      args.originPoint = f.origin.1 ∧ args.destinationPoint = f.destination.1 := by
  simp only [OrderForm.args, Option.bind_eq_bind, Option.bind_eq_some_iff] at h
  obtain ⟨_, -, _, -, h⟩ := h
  obtain rfl := Option.some.inj h
  exact ⟨rfl, rfl, rfl, rfl⟩

/-- A page stores nothing, or a request with a title and a text, or an application of a
user who has a phone number, or an order with a vehicle and two points. -/
theorem only_complete_stored (docs : Collection) (below : List Page) (asserts : Bool) (uid phone : String)
    (service : ServiceModel) :
    (∀ es s, Runs.run (supportKind uid).step ((supportKind uid).opened docs below) es = some s → s.docs = docs ∨
      ∃ id now args, args.title ≠ "" ∧ args.message ≠ "" ∧ s.docs = docs.set id (newRequest uid now args).toJson) ∧
    (∀ es s,
      Runs.run (workKind asserts uid phone).step ((workKind asserts uid phone).opened docs below) es = some s →
      s.docs = docs ∨ ∃ args, args.phone = phone ∧ phone ≠ "" ∧ args.service ∈ WorkForm.items ∧
        s.docs = docs.set uid (newProvider uid args).toJson) ∧
    ∀ es s, Runs.run (orderKind service uid).step ((orderKind service uid).opened docs below) es = some s →
      s.docs = docs ∨ ∃ id now args, args.service = service ∧ args.vehicle ≠ "" ∧ args.originPoint.latitude ≠ 0 ∧
        args.destinationPoint.latitude ≠ 0 ∧ s.docs = docs.set id (newOrder id uid now args).toJson := by
  refine ⟨fun es s h => ?_, fun es s h => ?_, fun es s h => ?_⟩
  · refine (FormKind.sendsOnce_run h).2.imp_right fun ⟨p, hsent, hset⟩ => ?_
    obtain ⟨es₁, id, now, -, -, hact, hcall⟩ := hsent
    obtain rfl := Option.some.inj hcall
    have hinv := FormKind.entered_inv (k := supportKind uid)
      (P := fun f => f.active = true → f.title ≠ "" ∧ f.message ≠ "") (fun ha => nomatch ha)
      (fun f e _ => f.edit_complete e) es₁
    exact ⟨id, now, _, (hinv hact).1, (hinv hact).2, hset⟩
  · refine (FormKind.sendsOnce_run h).2.imp_right fun ⟨p, hsent, hset⟩ => ?_
    obtain ⟨es₁, id, now, -, -, hact, hcall⟩ := hsent
    obtain ⟨-, hp⟩ := Option.ite_none_left_eq_some.mp hcall
    obtain rfl := Option.some.inj hp
    have hinv := FormKind.entered_inv (k := workKind asserts uid phone) (P := WorkForm.Applies phone)
      (WorkForm.applies_init phone) (fun f e hf => WorkForm.applies_edit hf e) es₁
    exact ⟨_, hinv.given, hinv.numbered hact, hinv.offered, hset⟩
  · refine (FormKind.sendsOnce_run h).2.imp_right fun ⟨p, hsent, hset⟩ => ?_
    obtain ⟨es₁, id, now, -, -, hact, hcall⟩ := hsent
    obtain ⟨args, hargs, rfl⟩ := Option.map_eq_some_iff.mp hcall
    have hfresh := FormKind.entered_inv (k := orderKind service uid) (P := OrderForm.Fresh)
      (show OrderForm.init.updateButton = OrderForm.init by decide) (fun f e hf => OrderForm.fresh_edit hf e) es₁
    obtain ⟨hv, ho, hd⟩ := OrderForm.complete_of_fresh hfresh hact
    obtain ⟨hs, hv', ho', hd'⟩ := OrderForm.args_eq_some hargs
    exact ⟨id, now, args, hs, hv' ▸ hv, ho' ▸ ho, hd' ▸ hd, hset⟩

theorem demo_complete : ∃ s,
    Runs.run (supportKind "u").step ((supportKind "u").opened .empty []) demoRequest = some s ∧
    ∃ id now args, args.title ≠ "" ∧ args.message ≠ "" ∧
      s.docs = Documents.Collection.empty.set id (newRequest "u" now args).toJson := by
  have h : (Runs.run (supportKind "u").step ((supportKind "u").opened .empty []) demoRequest).map
      (fun s => (s.docs.get "r").isSome) = some true := by decide +kernel
  obtain ⟨s, hs, hstored⟩ := Option.map_eq_some_iff.mp h
  have hcomplete := (only_complete_stored .empty [] false "u" "" demoArgs.service).1 _ s hs
  refine ⟨s, hs, hcomplete.resolve_left fun he => ?_⟩
  rw [he] at hstored
  revert hstored
  decide

/-! ## What is closed -/

def FormPage.KeepsBelow {φ : Type} (below : List Page) (s : FormPage φ) : Prop :=
  FormPage.base below <:+ s.navigator.routes

/-- A call ends before its form is left, or after the form has left the screen. -/
def FormPage.EndsInTime {φ ε : Type} (s : FormPage φ) : FormPageEvent ε → Prop
  | .answer _ => s.navigator.Mounted .form → .form ∈ s.navigator.routes
  | .edit _ | .openOverlay | .closeOverlay _ | .press _ _ | .back | .settle _ => True

namespace FormKind

section
variable {φ ε : Type} {k : FormKind φ ε} {below : List Page} {s s' : FormPage φ} {e : FormPageEvent ε}
  {us : List FormScreen}

theorem routes_close {n : Navigator FormScreen} : (k.close n).routes =
    if n.Mounted .form then (if k.opensOrder then .orderPage :: n.routes.tail else n.routes.tail)
    else n.routes := by
  unfold close
  by_cases hm : n.Mounted .form
  · rw [if_pos hm, Navigator.popFrom_of_mounted hm]
    cases k.opensOrder <;> simp [Navigator.push]
  · rw [if_neg hm, Navigator.popFrom_of_not_mounted hm]

/-- What may be over the pages below; until the call has ended it is the form, with a
menu or another page over it, or nothing. -/
structure Over (below : List Page) (us : List FormScreen) (s : FormPage φ) : Prop where
  routes : s.navigator.routes = us ++ FormPage.base below
  above : ∀ page, .below page ∉ us
  loading : s.pending.isSome → s.loading = true
  form : s.loading = false ∨ s.pending.isSome → us ∈ [[], [.form], [.overlay, .form]]

theorem Over.keepsBelow (h : Over below us s) : s.KeepsBelow below := ⟨us, h.routes.symm⟩

theorem Over.head (h : Over below us s) {r : FormScreen} (hr : s.navigator.routes.head? = some r)
    (hne : ∀ page, r ≠ .below page) : ∃ vs, us = r :: vs := by
  cases us with
  | nil =>
    rw [h.routes] at hr
    exact absurd (Option.some.inj hr).symm (hne .navigation)
  | cons r' vs =>
    rw [h.routes] at hr
    exact ⟨vs, by rw [Option.some.inj hr]⟩

theorem Over.pop (h : Over below us s) {r : FormScreen} (hr : s.navigator.routes.head? = some r)
    (hne : ∀ page, r ≠ .below page) (fields : φ) :
    ∃ vs, Over below vs { s with navigator := s.navigator.pop, fields } := by
  obtain ⟨vs, rfl⟩ := h.head hr hne
  refine ⟨vs, ?_, fun page hp => h.above page (List.mem_cons_of_mem r hp), h.loading, fun hf => ?_⟩
  · rw [Navigator.routes_pop, h.routes]
    rfl
  · have hus := h.form hf
    simp only [List.mem_cons, List.cons.injEq, List.not_mem_nil, reduceCtorEq, false_or, or_false] at hus
    rcases hus with ⟨-, rfl⟩ | ⟨-, rfl⟩ <;> simp

theorem over_step (h : Over below us s) (hc : s.EndsInTime e) (hs : k.step s e = some s') :
    ∃ vs, Over below vs s' := by
  cases e with
  | edit e =>
    obtain ⟨-, rfl⟩ := Option.ite_some_none_eq_some.mp hs
    exact ⟨us, h.routes, h.above, h.loading, h.form⟩
  | openOverlay =>
    obtain ⟨hr, rfl⟩ := Option.ite_some_none_eq_some.mp hs
    obtain ⟨vs, rfl⟩ := h.head hr (fun _ => by simp)
    refine ⟨.overlay :: .form :: vs, ?_, fun page hp => h.above page (by simpa using hp), h.loading, fun hf => ?_⟩
    · rw [Navigator.push, h.routes]
      rfl
    · have hus := h.form hf
      simpa using hus
  | closeOverlay e =>
    obtain ⟨hr, rfl⟩ := Option.ite_some_none_eq_some.mp hs
    exact h.pop hr (fun _ => by simp) _
  | press id now =>
    obtain ⟨⟨-, -, hl⟩, rfl⟩ := Option.ite_some_none_eq_some.mp hs
    exact ⟨us, h.routes, h.above, fun _ => rfl, fun _ => h.form (Or.inl hl)⟩
  | back =>
    simp only [step] at hs
    split at hs
    · rename_i hr
      exact Option.some.inj hs ▸ h.pop hr (fun _ => by simp) s.fields
    · rename_i hr
      exact Option.some.inj hs ▸ h.pop hr (fun _ => by simp) s.fields
    · rename_i hr
      exact Option.some.inj hs ▸ h.pop hr (fun _ => by simp) s.fields
    · cases hs
    · cases hs
  | settle r =>
    obtain ⟨n, hn, rfl⟩ := Option.map_eq_some_iff.mp hs
    exact ⟨us, (Navigator.routes_settle hn).trans h.routes, h.above, h.loading, h.form⟩
  | answer fails =>
    simp only [step] at hs
    split at hs
    · cases hs
    · rename_i id doc hpend
      obtain rfl := Option.some.inj hs
      have hl : s.loading = true := h.loading (by rw [hpend]; rfl)
      have hended : ¬ (s.loading = false ∨ (none : Option (String × Doc)).isSome) := by simp [hl]
      have hroutes := routes_close (k := k) (n := s.navigator)
      by_cases hm : s.navigator.Mounted .form
      · -- the form is among the routes over the pages below, so the pop takes one of these
        have hmem : .form ∈ us := by
          have hform := h.routes ▸ hc hm
          simpa [FormPage.base] using hform
        obtain ⟨r, vs, rfl⟩ := List.exists_cons_of_ne_nil (List.ne_nil_of_mem hmem)
        have habove : ∀ page, .below page ∉ vs := fun page hp => h.above page (List.mem_cons_of_mem r hp)
        rw [if_pos hm, h.routes, List.cons_append, List.tail_cons] at hroutes
        cases ho : k.opensOrder with
        | true =>
          rw [ho] at hroutes
          refine ⟨.orderPage :: vs, hroutes, fun page hp => ?_, fun hp => (nomatch hp), fun hf => absurd hf hended⟩
          exact habove page (by simpa using hp)
        | false =>
          rw [ho] at hroutes
          exact ⟨vs, hroutes, habove, fun hp => (nomatch hp), fun hf => absurd hf hended⟩
      · rw [if_neg hm, h.routes] at hroutes
        exact ⟨us, hroutes, h.above, fun hp => (nomatch hp), fun hf => absurd hf hended⟩

theorem endsInTime_of_keepsBelow (h : Over below us s) (hs : k.step s e = some s') (hk : s'.KeepsBelow below) :
    s.EndsInTime e := by
  cases e with
  | answer fails =>
    intro hm
    simp only [step] at hs
    split at hs
    · cases hs
    · rename_i id doc hpend
      obtain rfl := Option.some.inj hs
      have hus := h.form (Or.inr (by rw [hpend]; rfl))
      simp only [List.mem_cons, List.not_mem_nil, or_false] at hus
      rcases hus with rfl | rfl | rfl
      · -- the pop has taken `Navigation`, or the page on top of it
        have hsuffix : FormPage.base below <:+ (k.close s.navigator).routes := hk
        rw [routes_close, if_pos hm, h.routes, List.nil_append, FormPage.base, List.tail_cons] at hsuffix
        split at hsuffix
        · rcases List.suffix_cons_iff.mp hsuffix with heq | hle
          · cases heq
          · exact absurd hle.length_le (by simp)
        · exact absurd hsuffix.length_le (by simp)
      · rw [h.routes]
        exact List.mem_cons_self
      · rw [h.routes]
        exact List.mem_cons_of_mem _ List.mem_cons_self
  | _ => trivial

theorem keepsBelow_iff_endsInTime (docs : Collection) (below : List Page) (es : List (FormPageEvent ε)) :
    Runs.AllSteps k.step (fun _ _ s' => s'.KeepsBelow below) (k.opened docs below) es ↔
      Runs.Meets k.step FormPage.EndsInTime (k.opened docs below) es := by
  have h0 : ∃ us, Over below us (k.opened docs below) := by
    exact ⟨[.form], rfl, by simp, fun hp => (nomatch hp), fun _ => by simp⟩
  refine Runs.allSteps_iff_meets (I := fun s => ∃ us, Over below us s) (fun s e s' hi hc h => ?_)
    (fun s e s' hi hc h => ?_) (fun s e s' hi h hk => ?_) h0
  · exact over_step hi.choose_spec hc h
  · exact (over_step hi.choose_spec hc h).choose_spec.keepsBelow
  · exact endsInTime_of_keepsBelow hi.choose_spec h hk

end

end FormKind

/-- The pages below a form stay open, whatever is done, exactly if its call does not end
in the time in which the form, left by the back button, is still on the screen. -/
theorem forms_keepBelow_iff (docs : Collection) (below : List Page) (asserts : Bool) (uid phone : String)
    (service : ServiceModel) :
    (∀ es, Runs.AllSteps (supportKind uid).step (fun _ _ s' => s'.KeepsBelow below)
        ((supportKind uid).opened docs below) es ↔
      Runs.Meets (supportKind uid).step FormPage.EndsInTime ((supportKind uid).opened docs below) es) ∧
    (∀ es, Runs.AllSteps (workKind asserts uid phone).step (fun _ _ s' => s'.KeepsBelow below)
        ((workKind asserts uid phone).opened docs below) es ↔
      Runs.Meets (workKind asserts uid phone).step FormPage.EndsInTime
        ((workKind asserts uid phone).opened docs below) es) ∧
    ∀ es, Runs.AllSteps (orderKind service uid).step (fun _ _ s' => s'.KeepsBelow below)
        ((orderKind service uid).opened docs below) es ↔
      Runs.Meets (orderKind service uid).step FormPage.EndsInTime ((orderKind service uid).opened docs below) es :=
  ⟨FormKind.keepsBelow_iff_endsInTime docs below, FormKind.keepsBelow_iff_endsInTime docs below,
    FormKind.keepsBelow_iff_endsInTime docs below⟩

/-! ## The calls of the pages -/

inductive FormScreen.Shows {α : Type} : FormScreen → FormRoute α → Prop
  | form (input : α) (loading : Bool) : Shows .form (.form input loading)
  | orderPage (order : OrderModel) : Shows .orderPage (.orderPage order)
  | below (page : Page) : Shows (.below page) .under

structure FormPage.Refines {φ α : Type} (s : FormPage φ) (t : FormState α) : Prop where
  docs : s.docs = t.docs
  routes : List.Forall₂ FormScreen.Shows s.navigator.routes t.routes

structure FormKind.Ready {φ ε : Type} (k : FormKind φ ε) (s : FormPage φ) (rest : List FormScreen) : Prop where
  routes : s.navigator.routes = .form :: rest
  active : k.active s.fields = true
  idle : s.loading = false

section
variable {φ ε α : Type} {k : FormKind φ ε} {s : FormPage φ} {rest : List FormScreen} {under : List (FormRoute α)}
  {id : String} {now : Timestamp} {fails : Bool}

/-- What a press and the end of its call leave, against what a call of `Forms` leaves. -/
theorem FormKind.refines_of_call {p : String × Doc} {t : FormState α} (fails : Bool) (id : String) (now : Timestamp)
    (top : List (FormRoute α)) (h : k.Ready s rest) (hp : k.call s.fields id now = some p)
    (hunder : List.Forall₂ FormScreen.Shows rest under)
    (hdocs : t.docs = if fails = true ∨ p.1 = "" then s.docs else s.docs.set p.1 p.2)
    (hroutes : t.routes = top ++ under)
    (htop : List.Forall₂ FormScreen.Shows (if k.opensOrder then [.orderPage] else []) top) :
    ∃ s', Runs.run k.step s [.press id now, .answer fails] = some s' ∧ s'.Refines t := by
  refine ⟨_, k.run_press_answer (by rw [h.routes]; rfl) h.active h.idle hp, hdocs.symm, ?_⟩
  have hm : s.navigator.Mounted .form := Or.inl (by rw [h.routes]; exact List.mem_cons_self)
  rw [routes_close, if_pos hm, h.routes, hroutes, List.tail_cons]
  cases ho : k.opensOrder <;>
  · rw [ho] at htop
    exact List.rel_append htop hunder

theorem FormState.docs_trySet {doc : Doc} (t : FormState α) :
    (t.trySet fails id doc).docs = if fails = true ∨ id = "" then t.docs else t.docs.set id doc := by
  unfold trySet
  split <;> rfl

variable {docs : Collection} {n : Navigator FormScreen} {uid phone : String} {asserts : Bool}
  {service : ServiceModel}

theorem SupportForm.refines_requestSupport {f : SupportForm} {under : List (FormRoute SupportArgs)}
    (effects : List Effect)
    (h : (supportKind uid).Ready ⟨docs, n, f, false, none⟩ rest)
    (hunder : List.Forall₂ FormScreen.Shows rest under) :
    ∃ s t, Runs.run (supportKind uid).step ⟨docs, n, f, false, none⟩ [.press id now, .answer fails] = some s ∧
      FormState.press ⟨docs, .form f.args false :: under, effects⟩ (requestSupport fails id uid now) = some t ∧
      s.Refines t := by
  obtain ⟨s, hs, hr⟩ := FormKind.refines_of_call fails id now [] h rfl hunder
    (t := requestSupport fails id uid now f.args ⟨docs, .form f.args true :: under, effects⟩)
    (FormState.docs_trySet _) (by simp [requestSupport, FormState.pop]) .nil
  exact ⟨s, _, hs, rfl, hr⟩

theorem OrderForm.refines_sendOrder {f : OrderForm} {args : OrderArgs} {under : List (FormRoute OrderArgs)}
    (effects : List Effect)
    (h : (orderKind service uid).Ready ⟨docs, n, f, false, none⟩ rest) (hargs : f.args service = some args)
    (hunder : List.Forall₂ FormScreen.Shows rest under) :
    ∃ s t, Runs.run (orderKind service uid).step ⟨docs, n, f, false, none⟩ [.press id now, .answer fails] = some s ∧
      FormState.press ⟨docs, .form args false :: under, effects⟩ (sendOrder fails id uid now) = some t ∧
      s.Refines t := by
  have hcall : (orderKind service uid).call f id now = some (id, (newOrder id uid now args).toJson) :=
    Option.map_eq_some_iff.mpr ⟨args, hargs, rfl⟩
  obtain ⟨s, hs, hr⟩ := FormKind.refines_of_call fails id now [.orderPage (newOrder id uid now args)] h hcall hunder
    (t := sendOrder fails id uid now args ⟨docs, .form args true :: under, effects⟩)
    (FormState.docs_trySet _) (by simp [sendOrder, FormState.pop, FormState.push]) (.cons (.orderPage _) .nil)
  exact ⟨s, _, hs, rfl, hr⟩

/-- A call that throws before its `try` block has no end; the page waits for it. -/
theorem WorkForm.refines_registerProvider {f : WorkForm} {under : List (FormRoute ProviderArgs)}
    (effects : List Effect)
    (h : (workKind asserts uid phone).Ready ⟨docs, n, f, false, none⟩ rest)
    (hunder : List.Forall₂ FormScreen.Shows rest under) :
    ∃ s t, Runs.run (workKind asserts uid phone).step ⟨docs, n, f, false, none⟩
        (.press id now :: if asserts = true ∧ uid = "" then [] else [.answer fails]) = some s ∧
      FormState.press ⟨docs, .form f.args false :: under, effects⟩ (registerProvider asserts fails uid) = some t ∧
      s.Refines t := by
  by_cases ha : asserts = true ∧ uid = ""
  · have hroutes : n.routes = .form :: rest := h.routes
    have hactive : f.active = true := h.active
    refine ⟨⟨docs, n, f, true, none⟩, ⟨docs, .form f.args true :: under, effects ++ [.uncaughtError]⟩, ?_, ?_, rfl,
      hroutes ▸ .cons (.form _ _) hunder⟩
    · simp [Runs.run, FormKind.step, workKind, hroutes, hactive, ha]
    · simp [FormState.press, registerProvider, ha]
  · have hcall : (workKind asserts uid phone).call f id now = some (uid, (newProvider uid f.args).toJson) :=
      if_neg ha
    obtain ⟨s, hs, hr⟩ := FormKind.refines_of_call fails id now [] h hcall hunder
      (t := FormState.pop
        (FormState.trySet ⟨docs, .form f.args true :: under, effects⟩ fails uid (newProvider uid f.args).toJson))
      (FormState.docs_trySet _) (by simp [FormState.pop]) .nil
    refine ⟨s, _, ?_, ?_, hr⟩
    · rw [if_neg ha]
      exact hs
    · simp [FormState.press, registerProvider, ha]

end

end Sayaaratukcom
