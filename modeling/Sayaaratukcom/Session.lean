import Sayaaratukcom.Account
import Sayaaratukcom.Lib.Runs

/-!
# Sessions

One run of the app, from `main` on: the current user of `FirebaseAuth`, the
global `userProfile`, and the pages on the screen. Only `initUser` assigns
`userProfile`; a sign-out leaves it, and the pages under `Navigation` are
reached again without a sign-in.
-/

namespace Sayaaratukcom

inductive Page where
  | welcome
  | phone
  | verification
  | profile
  | navigation
  | under -- a page that is opened from `Navigation`
  deriving DecidableEq

/-- `pages` has the page that is shown at its head. -/
structure Session where
  store : Store
  currentUser : Option AuthUser
  userProfile : UserModel
  pages : List Page
  requested : Bool -- whether `verifyPhoneNumber` has been called

def emptyProfile : UserModel := ⟨"", "", "", "", "", "", 0⟩

inductive SessionAct where
  | skipLogin
  | openPhone
  | verifyPhoneNumber
  | codeSent
  | verificationCompleted (user : AuthUser)
  | verifyOtp (user : Option AuthUser) (x : InitInput) -- none when the code is rejected
  | signUp (name email gender : String) (setFails : Bool) (x : InitInput)
  | openUnder
  | askToLogin
  | back
  | signOut (fails : Bool)
  /-- Other devices and the functions write documents of users. -/
  | registerUser (uid phone name email gender : String)
  | appUpdate (m : AppUpdate)
  | refund (t : RefundTask) (now : Timestamp)

namespace Session

/-- `initUser`, with its answer: the profile stays when no document has been read. -/
def initUser (s : Session) (x : InitInput) : Bool × Session :=
  let r := Sayaaratukcom.initUser x s.currentUser s.store
  (r.registered, { s with store := r.store, userProfile := r.userProfile.getD s.userProfile })

def push (s : Session) (page : Page) : Session := { s with pages := page :: s.pages }

def main (x : InitInput) (currentUser : Option AuthUser) (st : Store) : Session :=
  let (registered, s) := initUser ⟨st, currentUser, emptyProfile, [], false⟩ x
  match currentUser with
  | none => s.push .welcome
  | some _ => s.push (if registered then .navigation else .profile)

def verifyOtp (s : Session) (user : AuthUser) (x : InitInput) : Session :=
  let (registered, s) := { s with currentUser := some user }.initUser x
  s.push (if registered then .navigation else .profile)

def verificationCompleted (s : Session) (user : AuthUser) : Session := { s with currentUser := some user }

def signUp (s : Session) (name email gender : String) (setFails : Bool) (x : InitInput) : Session :=
  match s.currentUser with
  | none => s
  | some user =>
    let st := if setFails then s.store
      else Sayaaratukcom.registerUser user.uid (user.phoneNumber.getD "") name email gender s.store
    let (registered, s) := { s with store := st }.initUser x
    if registered then s.push .navigation else s

def Shown (s : Session) : Prop := s.pages.head? = some .navigation ∨ s.pages.head? = some .under

instance (s : Session) : Decidable s.Shown := instDecidableOr

def step (s : Session) : SessionAct → Option Session
  | .skipLogin =>
    if s.pages.head? = some .welcome then some { s with pages := .navigation :: s.pages.tail } else none
  | .openPhone => if s.pages.head? = some .welcome then some (s.push .phone) else none
  | .verifyPhoneNumber => if s.pages.head? = some .phone then some { s with requested := true } else none
  | .codeSent => if s.requested ∧ .phone ∈ s.pages then some (s.push .verification) else none
  | .verificationCompleted user => if s.requested then some (s.verificationCompleted user) else none
  | .verifyOtp user x =>
    if s.pages.head? = some .verification then
      match user with
      | none => some s
      | some user => some (s.verifyOtp user x)
    else none
  | .signUp name email gender setFails x =>
    if s.pages.head? = some .profile ∧ name ≠ "" then some (s.signUp name email gender setFails x) else none
  | .openUnder => if s.Shown then some (s.push .under) else none
  | .askToLogin => if s.Shown ∧ s.userProfile.uid = "" then some (s.push .welcome) else none
  | .back =>
    match s.pages with
    -- `PopScope` holds `Welcome` and `Navigation`
    | .welcome :: _ | .navigation :: _ | [] => none
    | .phone :: pages | .verification :: pages | .profile :: pages | .under :: pages => some { s with pages }
  | .signOut fails =>
    -- `Welcome` replaces the dialog over `Navigation`
    if s.pages.head? = some .navigation ∧ s.userProfile.uid ≠ "" then
      some (if fails then s else { s with currentUser := none }.push .welcome)
    else none
  | .registerUser uid phone name email gender =>
    some { s with store := Sayaaratukcom.registerUser uid phone name email gender s.store }
  | .appUpdate m => some { s with store := m.apply s.store }
  | .refund t now => some { s with store := s.store.refund t now }

end Session

/-! ## What a session may show -/

/-- The profile is empty, or the one of the current user. -/
def Session.Clean (s : Session) : Prop :=
  s.userProfile = emptyProfile ∨ ∃ user, s.currentUser = some user ∧ s.userProfile.uid = user.uid

/-- Nothing of another account is shown on `Navigation` and the pages under it. -/
def Session.NoLeak (s : Session) : Prop := s.Shown → s.Clean

/-- Where `Navigation` comes up without a sign-in, and where the current user
changes under it, the profile is empty or the one of the user. -/
def KeepsSession (s : Session) : SessionAct → Prop
  | .skipLogin => s.Clean
  | .back => Session.Shown { s with pages := s.pages.tail } → s.Clean
  | .verificationCompleted user => s.Shown → s.userProfile = emptyProfile ∨ s.userProfile.uid = user.uid
  | .openPhone | .verifyPhoneNumber | .codeSent | .verifyOtp _ _ | .signUp _ _ _ _ _ | .openUnder | .askToLogin
  | .signOut _ | .registerUser _ _ _ _ _ | .appUpdate _ | .refund _ _ => True

/-- Every document of `users` has the uid that it is filed under, as
`registerUser` writes it. -/
def UidsMatch (st : Store) : Prop := ∀ uid user, st.users uid = some user → user.uid = some uid

theorem uidsMatch_of_sameKept {st st' : Store} (h : UidsMatch st) (hst : SameKept st st') : UidsMatch st' := by
  intro uid user' hu'
  have hk := hst uid
  rw [hu', Option.map_some] at hk
  obtain ⟨user, hu, hkept⟩ := Option.map_eq_some_iff.mp hk.symm
  have huid : user.kept.uid = user'.kept.uid := congrArg UserDoc.uid hkept
  exact huid.symm.trans (h uid user hu)

theorem uidsMatch_registerUser {st : Store} (h : UidsMatch st) (uid phone name email gender : String) :
    UidsMatch (registerUser uid phone name email gender st) := by
  intro uid' user hu
  simp only [registerUser, Function.update_apply] at hu
  split at hu
  · rename_i he
    obtain rfl := Option.some.inj hu
    rw [he]
    rfl
  · exact h uid' user hu

theorem uidsMatch_of_map {st st' : Store} (h : UidsMatch st) {f : String → UserDoc → UserDoc}
    (hst : ∀ uid, st'.users uid = (st.users uid).map (f uid)) (hf : ∀ uid user, (f uid user).uid = user.uid) :
    UidsMatch st' := by
  intro uid user' hu'
  rw [hst] at hu'
  obtain ⟨user, hu, rfl⟩ := Option.map_eq_some_iff.mp hu'
  rw [hf]
  exact h uid user hu

theorem uidsMatch_appUpdate {st : Store} (h : UidsMatch st) (m : AppUpdate) : UidsMatch (m.apply st) := by
  refine uidsMatch_of_map h (m.apply_users st) fun uid user => ?_
  split
  · cases m <;> rfl
  · rfl

theorem uidsMatch_refund {st : Store} (h : UidsMatch st) (t : RefundTask) (now : Timestamp) :
    UidsMatch (st.refund t now) := by
  refine uidsMatch_of_map h (st.users_refund t now) fun uid user => ?_
  split <;> rfl

/-! ## What a sign-in loads -/

theorem uid_of_ofDoc {doc : UserDoc} {profile : UserModel} (h : UserModel.ofDoc doc = some profile) :
    doc.uid = some profile.uid := by
  simp only [UserModel.ofDoc, Option.bind_eq_bind, Option.bind_eq_some_iff] at h
  obtain ⟨_, -, uid, hu, _, -, _, -, _, -, _, -, _, -, h⟩ := h
  rw [hu, ← Option.some.inj h]

theorem initUser_loaded {x : InitInput} {user : AuthUser} {st : Store} {profile : UserModel}
    (h : (initUser x (some user) st).userProfile = some profile) :
    ∃ doc, st.users user.uid = some doc ∧ UserModel.ofDoc doc = some profile := by
  rcases initUser_cases x (some user) st with ⟨logged, hr, -⟩ |
    ⟨user', doc, profile', hu, hdoc, hprofile, hr | ⟨st', -, hr⟩⟩
  · rw [hr] at h
    cases h
  all_goals
    rw [hr] at h
    obtain rfl := Option.some.inj h
    obtain rfl := Option.some.inj hu
    exact ⟨doc, hdoc, hprofile⟩

theorem initUser_profile {x : InitInput} {user : AuthUser} {st : Store}
    (h : (initUser x (some user) st).registered = true) :
    ∃ doc profile, st.users user.uid = some doc ∧ UserModel.ofDoc doc = some profile ∧
      (initUser x (some user) st).userProfile = some profile := by
  rcases initUser_cases x (some user) st with ⟨logged, hr, -⟩ |
    ⟨user', doc, profile, hu, hdoc, hprofile, hr | ⟨st', -, hr⟩⟩
  · rw [hr] at h
    cases h
  · rw [hr] at h
    cases h
  · obtain rfl := Option.some.inj hu
    exact ⟨doc, profile, hdoc, hprofile, by rw [hr]⟩

namespace Session

variable {s s' : Session} {a : SessionAct}

theorem uidsMatch_initUser (h : UidsMatch s.store) (x : InitInput) : UidsMatch (s.initUser x).2.store :=
  uidsMatch_of_sameKept h (initUser_sameKept x s.currentUser s.store)

theorem clean_initUser {user : AuthUser} {x : InitInput} (hm : UidsMatch s.store)
    (hu : s.currentUser = some user) (h : (s.initUser x).1 = true) : (s.initUser x).2.Clean := by
  simp only [initUser, hu] at h
  obtain ⟨doc, profile, hdoc, hprofile, hp⟩ := initUser_profile h
  have huid : some profile.uid = some user.uid := (uid_of_ofDoc hprofile).symm.trans (hm _ _ hdoc)
  refine Or.inr ⟨user, hu, ?_⟩
  simp only [initUser, hu, hp, Option.getD_some]
  exact Option.some.inj huid

theorem step_back (h : s.step .back = some s') : s' = { s with pages := s.pages.tail } := by
  simp only [step] at h
  cases hp : s.pages with
  | nil => simp [hp] at h
  | cons page pages =>
    rw [hp] at h
    cases page with
    | welcome => cases h
    | navigation => cases h
    | _ => exact (Option.some.inj h).symm

structure Inv (s : Session) : Prop where
  uids : UidsMatch s.store
  noLeak : s.NoLeak

theorem inv_push_registered {user : AuthUser} {x : InitInput} (hm : UidsMatch s.store)
    (hu : s.currentUser = some user) {page : Page} (hp : page ≠ .navigation ∧ page ≠ .under) :
    Inv ((s.initUser x).2.push (if (s.initUser x).1 then .navigation else page)) := by
  refine ⟨uidsMatch_initUser hm x, fun hs => ?_⟩
  cases hr : (s.initUser x).1 with
  | true => exact clean_initUser hm hu hr
  | false => simp [Shown, push, hr, hp] at hs

theorem inv_push (hm : UidsMatch s.store) {page : Page} (hp : page ≠ .navigation ∧ page ≠ .under) :
    Inv (s.push page) :=
  ⟨hm, fun hs => by simp [Shown, push, hp] at hs⟩

theorem inv_main {x : InitInput} {currentUser : Option AuthUser} {st : Store} (hm : UidsMatch st) :
    Inv (main x currentUser st) := by
  cases currentUser with
  | none => exact inv_push (uidsMatch_initUser (s := ⟨st, none, emptyProfile, [], false⟩) hm x) (by decide)
  | some user => exact inv_push_registered (s := ⟨st, some user, emptyProfile, [], false⟩) hm rfl (by decide)

theorem inv_signUp (hi : Inv s) (hp : s.pages.head? = some .profile) (name email gender : String)
    (setFails : Bool) (x : InitInput) : Inv (s.signUp name email gender setFails x) := by
  unfold signUp
  split
  · exact hi
  · rename_i user hu
    generalize hst : (if setFails then s.store
      else Sayaaratukcom.registerUser user.uid (user.phoneNumber.getD "") name email gender s.store) = st
    have hm : UidsMatch st := by
      rw [← hst]
      split
      · exact hi.uids
      · exact uidsMatch_registerUser hi.uids _ _ name email gender
    have hclean := clean_initUser (s := { s with store := st }) (x := x) hm hu
    have hm' := uidsMatch_initUser (s := { s with store := st }) hm x
    simp only
    split
    · rename_i hr
      exact ⟨hm', fun _ => hclean hr⟩
    · refine ⟨hm', fun hs => ?_⟩
      have hpages : ({ s with store := st }.initUser x).2.pages = s.pages := rfl
      simp [Shown, hpages, hp] at hs

theorem inv_step (hi : Inv s) (hc : KeepsSession s a) (h : s.step a = some s') : Inv s' := by
  cases a with
  | skipLogin =>
    obtain ⟨-, rfl⟩ := Option.ite_some_none_eq_some.mp h
    exact ⟨hi.uids, fun _ => hc⟩
  | openPhone =>
    obtain ⟨-, rfl⟩ := Option.ite_some_none_eq_some.mp h
    exact inv_push hi.uids (by decide)
  | verifyPhoneNumber =>
    obtain ⟨-, rfl⟩ := Option.ite_some_none_eq_some.mp h
    exact ⟨hi.uids, hi.noLeak⟩
  | codeSent =>
    obtain ⟨-, rfl⟩ := Option.ite_some_none_eq_some.mp h
    exact inv_push hi.uids (by decide)
  | verificationCompleted user =>
    obtain ⟨-, rfl⟩ := Option.ite_some_none_eq_some.mp h
    exact ⟨hi.uids, fun hs => (hc hs).imp_right fun hu => ⟨user, rfl, hu⟩⟩
  | verifyOtp user x =>
    obtain ⟨-, h⟩ := Option.ite_none_right_eq_some.mp h
    cases user with
    | none =>
      obtain rfl := Option.some.inj h
      exact hi
    | some user =>
      obtain rfl := Option.some.inj h
      exact inv_push_registered (s := { s with currentUser := some user }) hi.uids rfl (by decide)
  | signUp name email gender setFails x =>
    obtain ⟨⟨hp, -⟩, rfl⟩ := Option.ite_some_none_eq_some.mp h
    exact inv_signUp hi hp name email gender setFails x
  | openUnder =>
    obtain ⟨hs, rfl⟩ := Option.ite_some_none_eq_some.mp h
    exact ⟨hi.uids, fun _ => hi.noLeak hs⟩
  | askToLogin =>
    obtain ⟨-, rfl⟩ := Option.ite_some_none_eq_some.mp h
    exact inv_push hi.uids (by decide)
  | back =>
    obtain rfl := step_back h
    exact ⟨hi.uids, hc⟩
  | signOut fails =>
    obtain ⟨-, rfl⟩ := Option.ite_some_none_eq_some.mp h
    cases fails with
    | true => exact hi
    | false => exact inv_push (s := { s with currentUser := none }) hi.uids (by decide)
  | registerUser uid phone name email gender =>
    obtain rfl := Option.some.inj h
    exact ⟨uidsMatch_registerUser hi.uids uid phone name email gender, hi.noLeak⟩
  | appUpdate m =>
    obtain rfl := Option.some.inj h
    exact ⟨uidsMatch_appUpdate hi.uids m, hi.noLeak⟩
  | refund t now =>
    obtain rfl := Option.some.inj h
    exact ⟨uidsMatch_refund hi.uids t now, hi.noLeak⟩

theorem keepsSession_of_noLeak (h : s.step a = some s') (hn : s'.NoLeak) : KeepsSession s a := by
  cases a with
  | skipLogin =>
    obtain ⟨-, rfl⟩ := Option.ite_some_none_eq_some.mp h
    exact hn (Or.inl rfl)
  | back =>
    obtain rfl := step_back h
    exact hn
  | verificationCompleted user =>
    obtain ⟨-, rfl⟩ := Option.ite_some_none_eq_some.mp h
    intro hs
    refine (hn hs).imp_right fun hu => ?_
    obtain ⟨user', hu', huid⟩ := hu
    obtain rfl := Option.some.inj hu'
    exact huid
  | _ => trivial

end Session

/-- A run of the app leaks nothing exactly when each of its steps meets the
condition. -/
theorem session_noLeak_iff {st : Store} (hm : UidsMatch st) (x : InitInput) (currentUser : Option AuthUser)
    (as : List SessionAct) :
    (Session.main x currentUser st).NoLeak ∧
      (Runs.AllSteps Session.step (fun _ _ s' => s'.NoLeak) (Session.main x currentUser st) as ↔
        Runs.Meets Session.step KeepsSession (Session.main x currentUser st) as) := by
  refine ⟨(Session.inv_main hm).noLeak, Runs.allSteps_iff_meets ?_ ?_ ?_ (Session.inv_main hm)⟩
  · intro s a s' hi hc h
    exact Session.inv_step hi hc h
  · intro s a s' hi hc h
    exact (Session.inv_step hi hc h).noLeak
  · intro s a s' _ h hn
    exact Session.keepsSession_of_noLeak h hn

theorem demoStore_uidsMatch : UidsMatch demoStore := by
  intro uid user hu
  simp only [demoStore, Function.update_apply] at hu
  split at hu
  · rename_i he
    obtain rfl := Option.some.inj hu
    rw [he]
    rfl
  · cases hu

def demoAuthUser : AuthUser := ⟨"u", some "+966500000000"⟩

theorem demo_session_noLeak : (Session.main nothingFails (some demoAuthUser) demoStore).NoLeak ∧
    (Runs.AllSteps Session.step (fun _ _ s' => s'.NoLeak) (Session.main nothingFails (some demoAuthUser) demoStore)
        [.openUnder, .back, .signOut false] ↔
      Runs.Meets Session.step KeepsSession (Session.main nothingFails (some demoAuthUser) demoStore)
        [.openUnder, .back, .signOut false]) :=
  session_noLeak_iff demoStore_uidsMatch nothingFails (some demoAuthUser) [.openUnder, .back, .signOut false]

/-- The user signs out, and the guest who skips the login has the user's profile. -/
theorem guest_sees_profile : ∃ s, Runs.run Session.step (Session.main nothingFails (some demoAuthUser) demoStore)
      [.signOut false, .skipLogin] = some s ∧
    s.currentUser = none ∧ s.userProfile.uid = "u" ∧ ¬ s.NoLeak := by
  have h : (Runs.run Session.step (Session.main nothingFails (some demoAuthUser) demoStore)
      [.signOut false, .skipLogin]).map (fun s => (s.currentUser, s.userProfile.uid, s.pages)) =
        some (none, "u", [.navigation, .navigation]) := by decide +kernel
  obtain ⟨s, hs, heq⟩ := Option.map_eq_some_iff.mp h
  simp only [Prod.mk.injEq] at heq
  obtain ⟨hu, huid, hp⟩ := heq
  refine ⟨s, hs, hu, huid, fun hn => ?_⟩
  rcases hn (Or.inl (by rw [hp]; rfl)) with he | ⟨user, huser, -⟩
  · rw [he] at huid
    revert huid
    decide
  · rw [hu] at huser
    cases huser

end Sayaaratukcom
