import Sayaaratukcom.Wallet

/-!
# Accounts

`initUser` answers whether the user is registered, and every failure on its way
is logged and answered with `false`, like a missing document. `main` and
`verifyOtp` then open the `Profile` form, and a completed form registers the
user who is signed in by replacing the whole document.
-/

namespace Sayaaratukcom

structure AuthUser where
  uid : String
  phoneNumber : Option String
  deriving DecidableEq

structure UserModel where
  phone : String
  uid : String
  name : String
  avatarUrl : String
  email : String
  gender : String
  balance : ℚ
  deriving DecidableEq

def UserModel.toJson (user : UserModel) : UserDoc where
  phone := some user.phone
  uid := some user.uid
  name := some user.name
  avatarUrl := some user.avatarUrl
  email := some user.email
  gender := some user.gender
  balance := some (.double user.balance)
  fcmToken := none

/-- The model that `initUser` builds; a missing field throws. -/
def UserModel.ofDoc (userData : UserDoc) : Option UserModel := do
  let phone ← userData.phone
  let uid ← userData.uid
  let name ← userData.name
  let avatarUrl ← userData.avatarUrl
  let email ← userData.email
  let gender ← userData.gender
  let balance ← userData.balance
  return ⟨phone, uid, name, avatarUrl, email, gender, balance.val⟩

/-! ## initUser and registerUser -/

inductive InitCall where
  | get
  | requestPermission
  | getToken
  | subscribeAll
  | subscribeUsers
  | update
  deriving DecidableEq

structure InitInput where
  fails : InitCall → Bool
  fcmToken : Option String

def initNotifications (x : InitInput) (uid : String) (st : Store) : Option Store :=
  if [.requestPermission, .getToken, .subscribeAll, .subscribeUsers, .update].any x.fails then none
  else if uid = "" then none
  else (st.users uid).map fun _ => (AppUpdate.fcmToken uid x.fcmToken).apply st

structure InitResult where
  registered : Bool
  logged : Bool -- whether an exception has been caught
  userProfile : Option UserModel
  store : Store

def initUser (x : InitInput) (currentUser : Option AuthUser) (st : Store) : InitResult :=
  match currentUser with
  | none => ⟨false, true, none, st⟩
  | some user =>
    if x.fails .get then ⟨false, true, none, st⟩
    else
      match st.users user.uid with
      | none => ⟨false, false, none, st⟩
      | some userData =>
        match UserModel.ofDoc userData with
        | none => ⟨false, true, none, st⟩
        | some profile =>
          match initNotifications x profile.uid st with
          | none => ⟨false, true, some profile, st⟩
          | some st' => ⟨true, false, some profile, st'⟩

def registerUser (uid phone name email gender : String) (st : Store) : Store :=
  { st with users := Function.update st.users uid (some (UserModel.toJson
      { uid, phone, name, avatarUrl := "", email, gender, balance := 0 })) }

/-! ## Devices -/

/-- A `Profile` page that has not been completed; it does not know whom it was
opened for, nor why. -/
structure Form where
  openedFor : String
  logged : Bool
  deriving DecidableEq

structure Device where
  currentUser : Option AuthUser
  userProfile : Option UserModel
  forms : List Form

structure AccountState where
  store : Store
  devices : ℕ → Device

inductive AccountAct where
  | main (dev : ℕ) (x : InitInput)
  | verifyOtp (dev : ℕ) (user : AuthUser) (x : InitInput)
  /-- Form `i` of the device is completed; `setFails` when its `set` is refused. -/
  | signUp (dev i : ℕ) (name email gender : String) (setFails : Bool) (x : InitInput)
  | signOut (dev : ℕ)
  | verificationCompleted (dev : ℕ) (user : AuthUser)
  | uploadFile (dev : ℕ) (uid url : String)
  | refund (t : RefundTask) (now : Timestamp)

def AccountState.set (s : AccountState) (dev : ℕ) (d : Device) (st : Store) : AccountState :=
  ⟨st, Function.update s.devices dev d⟩

theorem AccountState.set_devices (s : AccountState) (dev : ℕ) (d : Device) (st : Store) (dev' : ℕ) :
    (s.set dev d st).devices dev' = if dev' = dev then d else s.devices dev' := Function.update_apply ..

def InitResult.forms (r : InitResult) (user : AuthUser) : List Form :=
  if r.registered then [] else [⟨user.uid, r.logged⟩]

def AccountState.step (s : AccountState) : AccountAct → Option AccountState
  | .main dev x =>
    let d := s.devices dev
    let r := initUser x d.currentUser s.store
    -- a start drops the pages of the last one; without a user it shows `Welcome`
    some (s.set dev ⟨d.currentUser, r.userProfile, d.currentUser.toList.flatMap r.forms⟩ r.store)
  | .verifyOtp dev user x =>
    let d := s.devices dev
    let r := initUser x (some user) s.store
    some (s.set dev ⟨some user, r.userProfile <|> d.userProfile, r.forms user ++ d.forms⟩ r.store)
  | .signUp dev i name email gender setFails x =>
    let d := s.devices dev
    if i < d.forms.length ∧ name ≠ "" then
      match d.currentUser with
      | none => some (s.set dev { d with forms := d.forms.eraseIdx i } s.store)
      | some user =>
        let st := if setFails then s.store
          else registerUser user.uid (user.phoneNumber.getD "") name email gender s.store
        let r := initUser x (some user) st
        some (s.set dev ⟨some user, r.userProfile <|> d.userProfile, d.forms.eraseIdx i⟩ r.store)
    else none
  | .signOut dev => some (s.set dev { s.devices dev with currentUser := none } s.store)
  | .verificationCompleted dev user => some (s.set dev { s.devices dev with currentUser := some user } s.store)
  | .uploadFile dev uid url =>
    if uid ≠ "" ∧ (s.devices dev).userProfile.map (·.uid) = some uid then
      some { s with store := (AppUpdate.avatarUrl uid url).apply s.store }
    else none
  | .refund t now => some { s with store := s.store.refund t now }

/-! ## What is kept -/

/-- The fields other than the token, which `initNotifications` renews. -/
def UserDoc.kept (user : UserDoc) : UserDoc := { user with fcmToken := none }

def SameKept (st st' : Store) : Prop :=
  ∀ uid, (st'.users uid).map UserDoc.kept = (st.users uid).map UserDoc.kept

/-- What refunds and uploads do to the document; the other steps are to leave it
as it is. -/
def AccountAct.onDoc (uid : String) : AccountAct → UserDoc → UserDoc
  | .refund t _, user => if t.userId = uid then user.credit t.offerPrice else user
  | .uploadFile _ uid' url, user => if uid' = uid then { user with avatarUrl := some url } else user
  | .main _ _, user | .verifyOtp _ _ _, user | .signUp _ _ _ _ _ _ _, user | .signOut _, user
  | .verificationCompleted _ _, user => user

def AccountAct.refunded (uid : String) : AccountAct → ℚ
  | .refund t _ => if t.userId = uid then t.offerPrice else 0
  | _ => 0

theorem kept_onDoc (uid : String) (a : AccountAct) {user user' : UserDoc} (h : user.kept = user'.kept) :
    (a.onDoc uid user).kept = (a.onDoc uid user').kept := by
  cases user
  cases user'
  simp only [UserDoc.kept, UserDoc.mk.injEq] at h
  obtain ⟨rfl, rfl, rfl, rfl, rfl, rfl, rfl, -⟩ := h
  cases a with
  | refund t now =>
    simp only [AccountAct.onDoc]
    split <;> rfl
  | uploadFile dev uid' url =>
    simp only [AccountAct.onDoc]
    split <;> rfl
  | _ => rfl

theorem currentBalance_onDoc (uid : String) (a : AccountAct) (user : UserDoc) :
    currentBalance (a.onDoc uid user) = currentBalance user + a.refunded uid := by
  cases a with
  | refund t now =>
    simp only [AccountAct.onDoc, AccountAct.refunded]
    split <;> simp
  | uploadFile dev uid' url =>
    simp only [AccountAct.onDoc, AccountAct.refunded, add_zero]
    split <;> rfl
  | _ => exact (add_zero _).symm

theorem currentBalance_foldl (uid : String) (as : List AccountAct) : ∀ user : UserDoc,
    currentBalance (as.foldl (fun user a => a.onDoc uid user) user) =
      currentBalance user + (as.map fun a => a.refunded uid).sum := by
  induction as with
  | nil => intro user; simp
  | cons a as ih =>
    intro user
    rw [List.foldl_cons, ih, currentBalance_onDoc, List.map_cons, List.sum_cons, add_assoc]

theorem sameKept_refl (st : Store) : SameKept st st := fun _ => rfl

theorem sameKept_token (st : Store) (uid : String) (token : Option String) :
    SameKept st ((AppUpdate.fcmToken uid token).apply st) := by
  intro uid'
  rw [AppUpdate.apply_users, Option.map_map]
  congr 1
  funext user
  by_cases h : uid' = uid <;> simp [h, AppUpdate.uid, AppUpdate.onUser, UserDoc.kept]

theorem initNotifications_sameKept {x : InitInput} {uid : String} {st st' : Store}
    (h : initNotifications x uid st = some st') : SameKept st st' := by
  unfold initNotifications at h
  split at h
  · cases h
  · split at h
    · cases h
    · obtain ⟨user, -, rfl⟩ := Option.map_eq_some_iff.mp h
      exact sameKept_token st _ _

/-- Nothing is loaded, or the profile is, and then the token may fail or not. -/
theorem initUser_cases (x : InitInput) (currentUser : Option AuthUser) (st : Store) :
    (∃ logged, initUser x currentUser st = ⟨false, logged, none, st⟩ ∧
      (logged = true ∨ ∃ user, currentUser = some user ∧ st.users user.uid = none)) ∨
    ∃ user doc profile, currentUser = some user ∧ st.users user.uid = some doc ∧
      UserModel.ofDoc doc = some profile ∧
      (initUser x currentUser st = ⟨false, true, some profile, st⟩ ∨
        ∃ st', initNotifications x profile.uid st = some st' ∧
          initUser x currentUser st = ⟨true, false, some profile, st'⟩) := by
  cases currentUser with
  | none => exact Or.inl ⟨true, rfl, Or.inl rfl⟩
  | some user =>
    simp only [initUser]
    split
    · exact Or.inl ⟨true, rfl, Or.inl rfl⟩
    split
    · rename_i hdoc
      exact Or.inl ⟨false, rfl, Or.inr ⟨user, rfl, hdoc⟩⟩
    rename_i doc hdoc
    split
    · exact Or.inl ⟨true, rfl, Or.inl rfl⟩
    rename_i profile hprofile
    split
    · exact Or.inr ⟨user, doc, profile, rfl, hdoc, hprofile, Or.inl rfl⟩
    · rename_i st' hst
      exact Or.inr ⟨user, doc, profile, rfl, hdoc, hprofile, Or.inr ⟨st', hst, rfl⟩⟩

theorem initUser_sameKept (x : InitInput) (currentUser : Option AuthUser) (st : Store) :
    SameKept st (initUser x currentUser st).store := by
  rcases initUser_cases x currentUser st with ⟨logged, h, -⟩ | ⟨user, doc, profile, -, -, -, h | ⟨st', hst, h⟩⟩
  · rw [h]
    exact sameKept_refl st
  · rw [h]
    exact sameKept_refl st
  · rw [h]
    exact initNotifications_sameKept hst

/-- Whoever has a document is registered, unless an exception has been logged. -/
theorem initUser_registered {x : InitInput} {user : AuthUser} {st : Store}
    (h : (st.users user.uid).isSome) :
    (initUser x (some user) st).registered = true ∨ (initUser x (some user) st).logged = true := by
  rcases initUser_cases x (some user) st with ⟨logged, hr, hl | ⟨user', hu, hdoc⟩⟩ |
    ⟨user', doc, profile, -, -, -, hr | ⟨st', -, hr⟩⟩
  · rw [hr]
    exact Or.inr hl
  · obtain rfl := Option.some.inj hu
    rw [hdoc] at h
    cases h
  · rw [hr]
    exact Or.inr rfl
  · rw [hr]
    exact Or.inl rfl

theorem registerUser_of_ne {uid uid' : String} (h : uid' ≠ uid) (phone name email gender : String) (st : Store) :
    (registerUser uid phone name email gender st).users uid' = st.users uid' := Function.update_of_ne h ..

/-! ## Runs -/

/-- A form that is completed, and written, while `uid` is signed in was opened
for `uid`, by a start or sign-in at which nothing had failed. -/
def FormsSound (uid : String) (s : AccountState) : AccountAct → Prop
  | .signUp dev i _ _ _ setFails _ =>
    setFails = false → ∀ form ∈ (s.devices dev).forms[i]?, ∀ user ∈ (s.devices dev).currentUser,
      user.uid = uid → form.openedFor = uid ∧ form.logged = false
  | .main _ _ | .verifyOtp _ _ _ | .signOut _ | .verificationCompleted _ _ | .uploadFile _ _ _ | .refund _ _ => True

instance (uid : String) (s : AccountState) : ∀ a, Decidable (FormsSound uid s a)
  | .signUp dev i _ _ _ setFails _ => inferInstanceAs (Decidable (setFails = false →
      ∀ form ∈ (s.devices dev).forms[i]?, ∀ user ∈ (s.devices dev).currentUser,
        user.uid = uid → form.openedFor = uid ∧ form.logged = false))
  | .main _ _ | .verifyOtp _ _ _ | .signOut _ | .verificationCompleted _ _ | .uploadFile _ _ _ | .refund _ _ =>
    .isTrue trivial

/-- The account exists, and the forms open for it stem from failures. -/
structure Existing (uid : String) (s : AccountState) : Prop where
  user : (s.store.users uid).isSome
  forms : ∀ dev, ∀ form ∈ (s.devices dev).forms, form.openedFor = uid → form.logged = true

section
variable {uid : String} {s s' : AccountState} {a : AccountAct}

theorem forms_set {dev : ℕ} {d : Device} {st : Store} (hi : Existing uid s)
    (hd : ∀ form ∈ d.forms, form.openedFor = uid → form.logged = true) :
    ∀ dev', ∀ form ∈ ((s.set dev d st).devices dev').forms, form.openedFor = uid → form.logged = true := by
  intro dev' form hf
  rw [AccountState.set_devices] at hf
  split at hf
  · exact hd form hf
  · exact hi.forms dev' form hf

theorem forms_initUser (hi : Existing uid s) (x : InitInput) (user : AuthUser) :
    ∀ form ∈ (initUser x (some user) s.store).forms user, form.openedFor = uid → form.logged = true := by
  intro form hf ho
  unfold InitResult.forms at hf
  split at hf
  · cases hf
  · rename_i hr
    obtain rfl := List.mem_singleton.mp hf
    exact (initUser_registered (x := x) (by rw [show user.uid = uid from ho]; exact hi.user)).resolve_left hr

theorem ne_of_formsSound {dev i : ℕ} {name email gender : String} {setFails : Bool} {x : InitInput}
    (hi : Existing uid s) (hc : FormsSound uid s (.signUp dev i name email gender setFails x))
    (hset : setFails = false) {form : Form} (hf : (s.devices dev).forms[i]? = some form) {user : AuthUser}
    (hu : (s.devices dev).currentUser = some user) : uid ≠ user.uid := by
  intro h
  subst h
  obtain ⟨ho, hl⟩ := hc hset form hf user hu rfl
  rw [hi.forms dev form (List.mem_of_getElem? hf) ho] at hl
  cases hl

theorem users_step (hi : Existing uid s) (hc : FormsSound uid s a) (h : s.step a = some s') :
    (s'.store.users uid).map UserDoc.kept = (s.store.users uid).map fun user => (a.onDoc uid user).kept := by
  cases a with
  | main dev x =>
    obtain rfl := Option.some.inj h
    exact initUser_sameKept x _ s.store uid
  | verifyOtp dev user x =>
    obtain rfl := Option.some.inj h
    exact initUser_sameKept x _ s.store uid
  | signOut dev =>
    obtain rfl := Option.some.inj h
    rfl
  | verificationCompleted dev user =>
    obtain rfl := Option.some.inj h
    rfl
  | refund t now =>
    obtain rfl := Option.some.inj h
    rw [Store.users_refund, Option.map_map]
    rfl
  | uploadFile dev uid' url =>
    simp only [AccountState.step] at h
    split at h
    · obtain rfl := Option.some.inj h
      rw [AppUpdate.apply_users, Option.map_map]
      congr 1
      funext user
      simp only [Function.comp, AccountAct.onDoc, AppUpdate.uid, AppUpdate.onUser, @eq_comm _ uid uid']
    · cases h
  | signUp dev i name email gender setFails x =>
    simp only [AccountState.step] at h
    split at h
    · rename_i hguard
      split at h
      · obtain rfl := Option.some.inj h
        rfl
      · rename_i user hu
        obtain rfl := Option.some.inj h
        refine (initUser_sameKept x _ _ uid).trans ?_
        split
        · rfl
        · rename_i hset
          have hne := ne_of_formsSound hi hc (by simpa using hset) (List.getElem?_eq_getElem hguard.1) hu
          rw [registerUser_of_ne hne]
          rfl
    · cases h

theorem existing_step (hi : Existing uid s) (hc : FormsSound uid s a) (h : s.step a = some s') :
    Existing uid s' := by
  refine ⟨?_, ?_⟩
  · have hu := congrArg Option.isSome (users_step hi hc h)
    rw [Option.isSome_map, Option.isSome_map, hi.user] at hu
    exact hu
  · have hold := hi.forms
    cases a with
    | main dev x =>
      obtain rfl := Option.some.inj h
      refine forms_set hi fun form hf => ?_
      cases hu : (s.devices dev).currentUser with
      | none => simp [hu] at hf
      | some user =>
        simp only [hu, Option.toList_some, List.flatMap_singleton] at hf
        exact forms_initUser hi x user form hf
    | verifyOtp dev user x =>
      obtain rfl := Option.some.inj h
      refine forms_set hi fun form hf => ?_
      rcases List.mem_append.mp hf with hf | hf
      · exact forms_initUser hi x user form hf
      · exact hold dev form hf
    | signOut dev =>
      obtain rfl := Option.some.inj h
      exact forms_set hi (hold dev)
    | verificationCompleted dev user =>
      obtain rfl := Option.some.inj h
      exact forms_set hi (hold dev)
    | refund t now =>
      obtain rfl := Option.some.inj h
      exact hold
    | uploadFile dev uid' url =>
      simp only [AccountState.step] at h
      split at h
      · obtain rfl := Option.some.inj h
        exact hold
      · cases h
    | signUp dev i name email gender setFails x =>
      simp only [AccountState.step] at h
      split at h
      · split at h
        all_goals
          obtain rfl := Option.some.inj h
          exact forms_set hi fun form hf => hold dev form (List.mem_of_mem_eraseIdx hf)
      · cases h

end

theorem kept_run {uid : String} {as : List AccountAct} : ∀ {s₀ s : AccountState} {user₀ : UserDoc},
    Existing uid s₀ → s₀.store.users uid = some user₀ → Runs.Meets AccountState.step (FormsSound uid) s₀ as →
    Runs.run AccountState.step s₀ as = some s → ∃ user, s.store.users uid = some user ∧
      user.kept = (as.foldl (fun user a => a.onDoc uid user) user₀).kept := by
  induction as using List.reverseRecOn with
  | nil =>
    intro s₀ s user₀ _ hu _ h
    obtain rfl := Option.some.inj h
    exact ⟨user₀, hu, rfl⟩
  | append_singleton as a ih =>
    intro s₀ s user₀ hi hu hc h
    obtain ⟨s₁, h₁, hs⟩ := (Runs.run_snoc_eq_some _).mp h
    obtain ⟨hc₁, hca⟩ := Runs.allSteps_append _ h₁ hc
    obtain ⟨user₁, hu₁, hk₁⟩ := ih hi hu hc₁ h₁
    have hi₁ : Existing uid s₁ := Runs.inv_run (fun _ _ _ hi hc h => existing_step hi hc h) hi hc₁ h₁
    have hstep := users_step hi₁ ((Runs.allSteps_cons _ hs).mp hca).1 hs
    rw [hu₁, Option.map_some] at hstep
    obtain ⟨user, hu', hk⟩ := Option.map_eq_some_iff.mp hstep
    refine ⟨user, hu', hk.trans ?_⟩
    rw [List.foldl_append]
    exact kept_onDoc uid a hk₁

/-- The user's document, apart from the token, is what the run's refunds and
uploads have made of `user₀`, and its balance the one its refunds have left. -/
def AccountKept (uid : String) (user₀ : UserDoc) (as : List AccountAct) (s : AccountState) : Prop :=
  ∃ user, s.store.users uid = some user ∧
    user.kept = (as.foldl (fun user a => a.onDoc uid user) user₀).kept ∧
    currentBalance user = currentBalance user₀ + (as.map fun a => a.refunded uid).sum

/-- An existing account is kept in every run in which each form completed under
it was opened for it by a start or sign-in without a failure. -/
theorem account_kept {uid : String} {s₀ s : AccountState} {user₀ : UserDoc}
    (hu : s₀.store.users uid = some user₀)
    (hforms : ∀ dev, ∀ form ∈ (s₀.devices dev).forms, form.openedFor = uid → form.logged = true)
    {as : List AccountAct} (hc : Runs.Meets AccountState.step (FormsSound uid) s₀ as)
    (h : Runs.run AccountState.step s₀ as = some s) : AccountKept uid user₀ as s := by
  obtain ⟨user, hu', hk⟩ := kept_run ⟨by rw [hu]; rfl, hforms⟩ hu hc h
  refine ⟨user, hu', hk, ?_⟩
  rw [← currentBalance_foldl]
  show currentBalance user.kept = currentBalance (UserDoc.kept _)
  rw [hk]

/-! ## Signing in again -/

def demoAccounts : AccountState := ⟨demoStore, fun _ => ⟨none, none, []⟩⟩

def nothingFails : InitInput := ⟨fun _ => false, some "token"⟩

/-- A refund and a sign-in of user `u`, a new user on another device, and a
start. -/
def demoSignIns : List AccountAct :=
  [.refund ⟨"o", "u", 100⟩ 9, .verifyOtp 0 ⟨"u", some "+966500000000"⟩ nothingFails,
   .verifyOtp 1 ⟨"v", none⟩ nothingFails, .signUp 1 0 "مستخدم" "" "ذكر" false nothingFails, .main 0 nothingFails]

theorem demo_account_kept : ∃ s, Runs.run AccountState.step demoAccounts demoSignIns = some s ∧
    AccountKept "u" demoUser demoSignIns s := by
  obtain ⟨s, h⟩ := Option.isSome_iff_exists.mp
    (show (Runs.run AccountState.step demoAccounts demoSignIns).isSome from by decide +kernel)
  exact ⟨s, h, account_kept (by decide) (fun _ _ hf => absurd hf List.not_mem_nil) (by decide +kernel) h⟩

/-- `getToken` fails at a sign-in, and the form that is shown is completed. -/
def demoSignInAgain : List AccountAct :=
  [.refund ⟨"o", "u", 100⟩ 9,
   .verifyOtp 0 ⟨"u", some "+966500000000"⟩ ⟨fun c => c == .getToken, none⟩,
   .signUp 0 0 "مستخدم" "" "ذكر" false nothingFails]

theorem signed_in_wiped : ∃ s, Runs.run AccountState.step demoAccounts demoSignInAgain = some s ∧
    ¬ AccountKept "u" demoUser demoSignInAgain s := by
  have h : (Runs.run AccountState.step demoAccounts demoSignInAgain).map (fun s =>
      (s.store.users "u").map currentBalance) = some (some 0) := by decide +kernel
  obtain ⟨s, hs, hb⟩ := Option.map_eq_some_iff.mp h
  refine ⟨s, hs, ?_⟩
  intro h
  obtain ⟨user, hu, -, hbal⟩ := h
  rw [hu, Option.map_some, Option.some.injEq] at hb
  have h0 : (0 : ℚ) = currentBalance demoUser + (demoSignInAgain.map fun a => a.refunded "u").sum :=
    hb.symm.trans hbal
  revert h0
  decide +kernel

end Sayaaratukcom
