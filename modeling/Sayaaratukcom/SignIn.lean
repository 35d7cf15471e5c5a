import Sayaaratukcom.Session

/-!
# The ways of signing in

A current user comes from `verifyOtp`, from `verificationCompleted` or from the
last run of the app. The first and the last decide by the answer of `initUser`,
which is also `false` when something has failed; `verificationCompleted` neither
reads the document nor opens a page.
-/

namespace Sayaaratukcom

/-- What a sign-in of `user` with the documents of `st` is to lead to. -/
structure SignsIn (x : InitInput) (user : AuthUser) (st : Store) (s : Session) : Prop where
  existing : ∀ doc, st.users user.uid = some doc → (∀ c, x.fails c = false) →
    UserModel.ofDoc doc = some s.userProfile ∧ s.pages.head? = some .navigation
  failing : ∀ doc, st.users user.uid = some doc → s.pages.head? ≠ some .profile
  missing : st.users user.uid = none →
    s.pages.head? = some .profile ∧ (s.userProfile = emptyProfile ∨ s.userProfile.uid = user.uid)

/-- Nothing fails, and the document is complete and has the uid of a document. -/
def ReadsWell (x : InitInput) (doc : UserDoc) (st : Store) : Prop :=
  (∀ c, x.fails c = false) ∧ ∃ profile, UserModel.ofDoc doc = some profile ∧ profile.uid ≠ "" ∧
    (st.users profile.uid).isSome

theorem initNotifications_isSome (x : InitInput) (uid : String) (st : Store) :
    (initNotifications x uid st).isSome ↔
      (∀ c, c ≠ .get → x.fails c = false) ∧ uid ≠ "" ∧ (st.users uid).isSome := by
  have hcalls : ([.requestPermission, .getToken, .subscribeAll, .subscribeUsers, .update].any x.fails = false) ↔
      ∀ c, c ≠ .get → x.fails c = false := by
    simp only [List.any_eq_false, List.mem_cons, List.not_mem_nil, or_false, forall_eq_or_imp, forall_eq]
    constructor
    · intro h c hc
      cases c <;> simp_all
    · intro h
      simp [h]
  rw [← hcalls, initNotifications]
  cases [.requestPermission, .getToken, .subscribeAll, .subscribeUsers, .update].any x.fails with
  | true => simp
  | false => by_cases hu : uid = "" <;> simp [hu]

section
variable {x : InitInput} {user : AuthUser} {st : Store}

theorem initUser_of_none (h : st.users user.uid = none) :
    (initUser x (some user) st).registered = false ∧ (initUser x (some user) st).userProfile = none := by
  rcases initUser_cases x (some user) st with ⟨logged, hr, -⟩ | ⟨user', doc, profile, hu, hdoc, -⟩
  · rw [hr]
    exact ⟨rfl, rfl⟩
  · obtain rfl := Option.some.inj hu
    rw [h] at hdoc
    cases hdoc

theorem initUser_registered_iff {doc : UserDoc} (h : st.users user.uid = some doc) :
    (initUser x (some user) st).registered = true ↔ ReadsWell x doc st := by
  have hfails : (∀ c, x.fails c = false) ↔ x.fails .get = false ∧ ∀ c, c ≠ .get → x.fails c = false := by
    constructor
    · intro hx
      exact ⟨hx .get, fun c _ => hx c⟩
    · intro hx c
      by_cases hc : c = .get
      · rw [hc, hx.1]
      · exact hx.2 c hc
  rw [ReadsWell, hfails]
  cases hget : x.fails .get with
  | true => simp [initUser, hget]
  | false =>
    cases hp : UserModel.ofDoc doc with
    | none => simp [initUser, hget, h, hp]
    | some profile =>
      have hn := initNotifications_isSome x profile.uid st
      cases hi : initNotifications x profile.uid st with
      | none =>
        rw [hi] at hn
        simpa [initUser, hget, h, hp, hi] using hn
      | some st' =>
        rw [hi] at hn
        simpa [initUser, hget, h, hp, hi] using hn

end

section
variable {x : InitInput} {user : AuthUser} {s : Session}

theorem initUser_of_currentUser (x : InitInput) (hu : s.currentUser = some user) :
    (s.initUser x).1 = (initUser x (some user) s.store).registered ∧
      (s.initUser x).2.userProfile = (initUser x (some user) s.store).userProfile.getD s.userProfile := by
  rw [Session.initUser, hu]
  exact ⟨rfl, rfl⟩

theorem signsIn_missing_iff (hu : s.currentUser = some user) (hdoc : s.store.users user.uid = none) :
    SignsIn x user s.store ((s.initUser x).2.push (if (s.initUser x).1 then .navigation else .profile)) ↔
      s.userProfile = emptyProfile ∨ s.userProfile.uid = user.uid := by
  obtain ⟨hr, hp⟩ := initUser_of_currentUser x hu
  obtain ⟨hreg, hprof⟩ := initUser_of_none (x := x) hdoc
  have hsame : (s.initUser x).2.userProfile = s.userProfile := by rw [hp, hprof, Option.getD_none]
  rw [hr, hreg, ← hsame]
  constructor
  · intro h
    exact (h.missing hdoc).2
  · intro h
    exact ⟨by simp [hdoc], by simp [hdoc], fun _ => ⟨rfl, h⟩⟩

theorem signsIn_existing_iff {doc : UserDoc} (hu : s.currentUser = some user)
    (hdoc : s.store.users user.uid = some doc) :
    SignsIn x user s.store ((s.initUser x).2.push (if (s.initUser x).1 then .navigation else .profile)) ↔
      ReadsWell x doc s.store := by
  obtain ⟨hr, hp⟩ := initUser_of_currentUser x hu
  have hiff := initUser_registered_iff (x := x) hdoc
  constructor
  · intro h
    rw [← hiff, ← hr]
    by_contra hreg
    exact h.failing doc hdoc (by rw [if_neg hreg]; rfl)
  · intro h
    have hreg := hiff.mpr h
    obtain ⟨doc', profile, hdoc', hprofile, hprof⟩ := initUser_profile hreg
    obtain rfl := Option.some.inj (hdoc.symm.trans hdoc')
    rw [hprof] at hp
    rw [hr, if_pos hreg]
    refine ⟨fun doc₁ hdoc₁ _ => ⟨?_, rfl⟩, fun _ _ => by simp [Session.push], by simp [hdoc]⟩
    obtain rfl := Option.some.inj (hdoc.symm.trans hdoc₁)
    exact hprofile.trans (congrArg some hp.symm)

/-- The page that the answer of `initUser` opens is the right one, with the right
profile, when a document that is there reads well; without one the profile that
was there before must not be another user's. -/
theorem signsIn_initUser_iff (hu : s.currentUser = some user) :
    SignsIn x user s.store ((s.initUser x).2.push (if (s.initUser x).1 then .navigation else .profile)) ↔
      (∀ doc, s.store.users user.uid = some doc → ReadsWell x doc s.store) ∧
      (s.store.users user.uid = none → s.userProfile = emptyProfile ∨ s.userProfile.uid = user.uid) := by
  cases hdoc : s.store.users user.uid with
  | none => simp [signsIn_missing_iff hu hdoc]
  | some doc => simp [signsIn_existing_iff hu hdoc]

end

/-- When each way of signing in leads to what it should: for `verifyOtp` and for
a start a document has to read well, and without one the profile must not be
another user's; after `verificationCompleted` the profile and the page must have
been right before, since it changes neither. -/
theorem signIn_agrees_iff (s : Session) (st : Store) (user : AuthUser) (x : InitInput) :
    (SignsIn x user s.store (s.verifyOtp user x) ↔
      (∀ doc, s.store.users user.uid = some doc → ReadsWell x doc s.store) ∧
      (s.store.users user.uid = none → s.userProfile = emptyProfile ∨ s.userProfile.uid = user.uid)) ∧
    (SignsIn x user st (Session.main x (some user) st) ↔
      ∀ doc, st.users user.uid = some doc → ReadsWell x doc st) ∧
    (SignsIn nothingFails user s.store (s.verificationCompleted user) ↔
      (∀ doc, s.store.users user.uid = some doc →
        UserModel.ofDoc doc = some s.userProfile ∧ s.pages.head? = some .navigation) ∧
      (s.store.users user.uid = none → s.pages.head? = some .profile ∧
        (s.userProfile = emptyProfile ∨ s.userProfile.uid = user.uid))) := by
  refine ⟨signsIn_initUser_iff (s := { s with currentUser := some user }) rfl, ?_, ?_⟩
  · refine (signsIn_initUser_iff (s := ⟨st, some user, emptyProfile, [], false⟩) rfl).trans ?_
    simp
  · constructor
    · intro h
      exact ⟨fun doc hdoc => h.existing doc hdoc fun _ => rfl, h.missing⟩
    · intro h
      refine ⟨fun doc hdoc _ => h.1 doc hdoc, fun doc hdoc => ?_, h.2⟩
      have hp : (s.verificationCompleted user).pages.head? = some .navigation := (h.1 doc hdoc).2
      simp [hp]

def demoVerification : Session :=
  ⟨demoStore, none, emptyProfile, [.verification, .phone, .welcome], true⟩

/-- An automatic verification leaves the page of the code, and a sign-in at which
`getToken` fails shows the form of a new user. -/
theorem signIn_disagrees :
    ¬ SignsIn nothingFails demoAuthUser demoStore (demoVerification.verificationCompleted demoAuthUser) ∧
    ¬ SignsIn ⟨fun c => c == .getToken, none⟩ demoAuthUser demoStore
      (demoVerification.verifyOtp demoAuthUser ⟨fun c => c == .getToken, none⟩) := by
  have hu : demoStore.users "u" = some demoUser := by decide +kernel
  refine ⟨fun h => ?_, fun h => ?_⟩
  · have hp := (h.existing demoUser hu fun _ => rfl).2
    revert hp
    decide
  · have hp := h.failing demoUser hu
    revert hp
    decide +kernel

end Sayaaratukcom
