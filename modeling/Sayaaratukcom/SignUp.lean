import Sayaaratukcom.SignIn
import Sayaaratukcom.SignInPages

/-!
# Signing up

`signUp` starts `registerUser` without awaiting it, so its write is answered at
any time and its exception is not caught, and asks `initUser` whether the user is
registered. The writes of one client are carried out in order, so the update of
the token is answered after that write.
-/

namespace Sayaaratukcom

inductive SignUpPhase where
  | getting
  | notifying
  | ended
  deriving DecidableEq

structure SignUpState where
  store : Store
  write : WriteStatus -- the one of `registerUser`
  phase : SignUpPhase
  userProfile : UserModel
  page : SignInPage
  opened : Option SignInRoute
  error : Bool -- whether an error has been shown

inductive SignUpEvent where
  | write (fails : Bool)
  | get (seesPending : Bool) -- a read may see a pending write of its client
  | notifications
  deriving DecidableEq

/-- The model that `registerUser` writes. -/
def newUser (user : AuthUser) (name email gender : String) : UserModel :=
  { uid := user.uid, phone := user.phoneNumber.getD "", name, avatarUrl := "", email, gender, balance := 0 }

namespace SignUpState

def answer (s : SignUpState) (o : SignInOutcome) : SignUpState :=
  match s.page.answer o with
  | none => s
  | some (page, next) => { s with phase := .ended, page, opened := next }

/-- The button of a `Profile` page has been pressed. -/
def signUp (currentUser : Option AuthUser) (name email gender : String) (st : Store) (userProfile : UserModel) :
    SignUpState :=
  let s : SignUpState := ⟨st, .unsent, .getting, userProfile, ⟨.profile name email gender, true, true, .pending⟩,
    none, false⟩
  match currentUser with
  | none => { s.answer .exception with error := true }
  | some _ => { s with write := .pending }

def seen (user : AuthUser) (name email gender : String) (s : SignUpState) (seesPending : Bool) : Option UserDoc :=
  if s.write = .pending ∧ seesPending = true then some (newUser user name email gender).toJson
  else s.store.users user.uid

/-- Without a user `signUp` has ended at once. -/
def step (currentUser : Option AuthUser) (name email gender : String) (x : InitInput) (s : SignUpState)
    (e : SignUpEvent) : Option SignUpState :=
  currentUser.bind fun user =>
    match e with
    | .write fails =>
      if s.write = .pending then
        if fails = true ∨ user.uid = "" then some { s with write := .refused }
        else
          some { s with
            store := registerUser user.uid (user.phoneNumber.getD "") name email gender s.store
            write := .committed }
      else none
    | .get seesPending =>
      if s.phase = .getting then
        if x.fails .get = true ∨ user.uid = "" then some (s.answer (.initUser false))
        else
          match (s.seen user name email gender seesPending).bind UserModel.ofDoc with
          | none => some (s.answer (.initUser false))
          | some userProfile => some { s with userProfile, phase := .notifying }
      else none
    | .notifications =>
      if s.phase = .notifying ∧ (s.write ≠ .pending ∨
          [.requestPermission, .getToken, .subscribeAll, .subscribeUsers].any x.fails = true) then
        match initNotifications x s.userProfile.uid s.store with
        | none => some (s.answer (.initUser false))
        | some st => some ({ s with store := st }.answer (.initUser true))
      else none

end SignUpState

/-! ## What is reported -/

/-- `Navigation` is open exactly when the write has committed and the profile is
the submitted one; otherwise an error is shown, and the form can be submitted. -/
def Truthful (profile : Option UserModel) (s : SignUpState) : Prop :=
  (s.opened = some .navigation ↔ s.write = .committed ∧ some s.userProfile = profile) ∧
    (s.opened ≠ some .navigation → s.error = true ∧ s.page.Enabled)

/-- The write lands, the read sees a document of the submitted profile, and no
call of `initUser` fails. -/
def SignUpSound (user : AuthUser) (name email gender : String) (x : InitInput) (s : SignUpState) :
    SignUpEvent → Prop
  | .write fails => fails = false ∧ user.uid ≠ ""
  | .get seesPending =>
    x.fails .get = false ∧ user.uid ≠ "" ∧
      (s.seen user name email gender seesPending).bind UserModel.ofDoc = some (newUser user name email gender)
  | .notifications => ∀ c, c ≠ .get → x.fails c = false

def OnTrack (profile : UserModel) (s : SignUpState) : Prop :=
  s.write ≠ .refused ∧
    match s.phase with
    | .getting => True
    | .notifying => s.userProfile = profile
    | .ended => s.userProfile = profile ∧ s.opened = some .navigation

/-- The page has been pressed and waits for its end, and a document is there once
the write has committed. -/
structure SignUpInv (user : AuthUser) (name email gender : String) (s : SignUpState) : Prop where
  form : s.page.form = .profile name email gender
  loading : s.page.loading = true
  call : s.phase ≠ .ended → s.page.call = .pending
  unsent : s.write ≠ .unsent
  registered : s.write = .committed → user.uid ≠ "" ∧ (s.store.users user.uid).isSome
  opened : s.opened = some .navigation → s.write ≠ .pending

section
variable {user : AuthUser} {name email gender : String} {x : InitInput} {st : Store} {userProfile : UserModel}
  {s s' : SignUpState} {e : SignUpEvent}

theorem lands_iff {fails : Bool} {uid : String} : ¬ (fails = true ∨ uid = "") ↔ fails = false ∧ uid ≠ "" := by
  rw [not_or, Bool.not_eq_true]

theorem SignUpInv.answer (hi : SignUpInv user name email gender s) (hp : s.phase ≠ .ended) (registered : Bool) :
    s.answer (.initUser registered) =
      { s with
        phase := .ended
        page := { s.page with call := .answered }
        opened := if registered then some .navigation else none } := by
  have haw : s.page.Awaits := Or.inl (hi.call hp)
  simp [SignUpState.answer, SignInPage.answer, haw, SignInPage.opens, hi.form]

theorem SignUpInv.of_sameKept (hi : SignUpInv user name email gender s) (hst : SameKept s.store st) :
    SignUpInv user name email gender { s with store := st } := by
  refine { hi with registered := fun hc => ⟨(hi.registered hc).1, ?_⟩ }
  have hsome := congrArg Option.isSome (hst user.uid)
  rw [Option.isSome_map, Option.isSome_map] at hsome
  exact hsome.trans (hi.registered hc).2

theorem SignUpInv.ended (hi : SignUpInv user name email gender s) (hp : s.phase ≠ .ended) {registered : Bool}
    (hw : registered = true → s.write ≠ .pending) :
    SignUpInv user name email gender (s.answer (.initUser registered)) := by
  rw [hi.answer hp]
  refine { hi with call := fun hend => absurd rfl hend, opened := fun ho => hw ?_ }
  cases registered with
  | true => rfl
  | false => cases ho

theorem not_early (h : ∀ c, c ≠ .get → x.fails c = false) :
    ¬ [.requestPermission, .getToken, .subscribeAll, .subscribeUsers].any x.fails = true := by
  simp [h .requestPermission, h .getToken, h .subscribeAll, h .subscribeUsers]

theorem signUpInv_step (hi : SignUpInv user name email gender s)
    (h : s.step (some user) name email gender x e = some s') : SignUpInv user name email gender s' := by
  cases e with
  | write fails =>
    obtain ⟨hw, h⟩ := Option.ite_none_right_eq_some.mp h
    split at h
    · obtain rfl := Option.some.inj h
      exact { hi with
        unsent := by simp
        registered := fun hc => by cases hc
        opened := fun _ => by simp }
    · rename_i hfails
      obtain rfl := Option.some.inj h
      rw [lands_iff] at hfails
      exact { hi with
        unsent := by simp
        registered := fun _ => ⟨hfails.2, by simp [registerUser]⟩
        opened := fun _ => by simp }
  | get seesPending =>
    obtain ⟨hp, h⟩ := Option.ite_none_right_eq_some.mp h
    have hne : s.phase ≠ .ended := by simp [hp]
    split at h
    · obtain rfl := Option.some.inj h
      exact hi.ended hne (by simp)
    · split at h
      · obtain rfl := Option.some.inj h
        exact hi.ended hne (by simp)
      · obtain rfl := Option.some.inj h
        exact { hi with call := fun _ => hi.call hne }
  | notifications =>
    obtain ⟨⟨hp, hw⟩, h⟩ := Option.ite_none_right_eq_some.mp h
    have hne : s.phase ≠ .ended := by simp [hp]
    split at h
    · obtain rfl := Option.some.inj h
      exact hi.ended hne (by simp)
    · rename_i st' hst
      obtain rfl := Option.some.inj h
      have hfails := ((initNotifications_isSome x _ _).mp (Option.isSome_of_eq_some hst)).1
      exact (hi.of_sameKept (initNotifications_sameKept hst)).ended hne fun _ => hw.resolve_right (not_early hfails)

theorem committed_of_answered {w : WriteStatus} (hu : w ≠ .unsent) (hp : w ≠ .pending) (hr : w ≠ .refused) :
    w = .committed := by
  cases w with
  | committed => rfl
  | unsent => exact absurd rfl hu
  | pending => exact absurd rfl hp
  | refused => exact absurd rfl hr

theorem onTrack_answer (hi : SignUpInv user name email gender s) (hp : s.phase ≠ .ended) {profile : UserModel}
    {registered : Bool} : OnTrack profile (s.answer (.initUser registered)) ↔
      s.write ≠ .refused ∧ s.userProfile = profile ∧ registered = true := by
  rw [hi.answer hp]
  cases registered with
  | true => simp [OnTrack]
  | false => simp [OnTrack]

theorem onTrack_step (hi : SignUpInv user name email gender s)
    (h : s.step (some user) name email gender x e = some s') :
    OnTrack (newUser user name email gender) s' ↔
      OnTrack (newUser user name email gender) s ∧ SignUpSound user name email gender x s e := by
  cases e with
  | write fails =>
    obtain ⟨hw, h⟩ := Option.ite_none_right_eq_some.mp h
    split at h
    · rename_i hfails
      obtain rfl := Option.some.inj h
      refine iff_of_false (fun ht => ht.1 rfl) fun ht => ?_
      exact lands_iff.mpr ht.2 hfails
    · rename_i hfails
      obtain rfl := Option.some.inj h
      rw [lands_iff] at hfails
      simp [OnTrack, SignUpSound, hw, hfails]
  | get seesPending =>
    obtain ⟨hp, h⟩ := Option.ite_none_right_eq_some.mp h
    have hne : s.phase ≠ .ended := by simp [hp]
    split at h
    · rename_i hfails
      obtain rfl := Option.some.inj h
      rw [onTrack_answer hi hne]
      refine iff_of_false (fun ht => by cases ht.2.2) fun ht => ?_
      exact lands_iff.mpr ⟨ht.2.1, ht.2.2.1⟩ hfails
    · rename_i hfails
      rw [lands_iff] at hfails
      split at h
      · rename_i hseen
        obtain rfl := Option.some.inj h
        rw [onTrack_answer hi hne]
        refine iff_of_false (fun ht => by cases ht.2.2) fun ht => ?_
        rw [SignUpSound, hseen] at ht
        cases ht.2.2.2
      · rename_i profile hseen
        obtain rfl := Option.some.inj h
        simp [OnTrack, SignUpSound, hp, hfails, hseen]
  | notifications =>
    obtain ⟨⟨hp, hw⟩, h⟩ := Option.ite_none_right_eq_some.mp h
    have hne : s.phase ≠ .ended := by simp [hp]
    have hsome := initNotifications_isSome x s.userProfile.uid s.store
    split at h
    · rename_i hst
      obtain rfl := Option.some.inj h
      rw [onTrack_answer hi hne]
      refine iff_of_false (fun ht => by cases ht.2.2) fun ht => ?_
      -- without an early failure the write has been answered, so the document is there
      obtain ⟨⟨hrefused, hprofile⟩, hfails⟩ := ht
      have hcommitted : s.write = .committed :=
        committed_of_answered hi.unsent (hw.resolve_right (not_early hfails)) hrefused
      rw [hp] at hprofile
      have huid : s.userProfile.uid = user.uid := congrArg UserModel.uid hprofile
      have hreg := hi.registered hcommitted
      rw [← huid] at hreg
      rw [hst] at hsome
      cases hsome.mpr ⟨hfails, hreg⟩
    · rename_i st' hst
      obtain rfl := Option.some.inj h
      rw [onTrack_answer (hi.of_sameKept (initNotifications_sameKept hst)) hne]
      rw [hst] at hsome
      simp only [OnTrack, SignUpSound, hp, and_true]
      exact (and_iff_left (hsome.mp rfl).1).symm

theorem truthful_iff_onTrack (hi : SignUpInv user name email gender s) (hend : s.phase = .ended)
    {profile : UserModel} : Truthful (some profile) s ↔ OnTrack profile s := by
  have hoff : ¬ s.page.Enabled := fun h => absurd (hi.loading.symm.trans h.2) (by decide)
  rw [OnTrack, hend]
  refine ⟨fun ht => ?_, fun ht => ?_⟩
  · have hopened : s.opened = some .navigation := by
      by_contra hn
      exact hoff (ht.2 hn).2
    obtain ⟨hc, hprofile⟩ := ht.1.mp hopened
    exact ⟨by simp [hc], Option.some.inj hprofile, hopened⟩
  · obtain ⟨hr, hprofile, hopened⟩ := ht
    exact ⟨iff_of_true hopened ⟨committed_of_answered hi.unsent (hi.opened hopened) hr, by rw [hprofile]⟩,
      fun hn => absurd hopened hn⟩

theorem signUpInv_signUp :
    SignUpInv user name email gender (.signUp (some user) name email gender st userProfile) where
  form := rfl
  loading := rfl
  call := fun _ => rfl
  unsent := by simp [SignUpState.signUp]
  registered := fun hc => by cases hc
  opened := fun ho => by cases ho

end

/-- With any previous content of the documents, whenever `signUp` has ended: what
is reported is true exactly when a user is signed in, the write has landed, the
read has seen the submitted profile, and nothing has failed. -/
theorem truthful_iff {currentUser : Option AuthUser} {name email gender : String} {x : InitInput} {st : Store}
    {userProfile : UserModel} {es : List SignUpEvent} {s : SignUpState}
    (h : Runs.run (SignUpState.step currentUser name email gender x)
      (.signUp currentUser name email gender st userProfile) es = some s)
    (hend : s.phase = .ended) :
    Truthful (currentUser.map fun user => newUser user name email gender) s ↔
      ∃ user, currentUser = some user ∧ Runs.Meets (SignUpState.step currentUser name email gender x)
        (SignUpSound user name email gender x) (.signUp currentUser name email gender st userProfile) es := by
  cases currentUser with
  | none =>
    cases es with
    | nil =>
      obtain rfl := Option.some.inj h
      refine iff_of_false (fun ht => ?_) fun hc => ?_
      · have hloading : (SignUpState.signUp none name email gender st userProfile).page.loading = true := rfl
        have henabled := (ht.2 (show (none : Option SignInRoute) ≠ _ by simp)).2.2
        rw [hloading] at henabled
        cases henabled
      · obtain ⟨user, hu, -⟩ := hc
        cases hu
    | cons e es =>
      obtain ⟨s', hs, -⟩ := (Runs.run_cons_eq_some _).mp h
      cases hs
  | some user =>
    have hinv := Runs.inv_run_free (fun s e s' hi hs => signUpInv_step hi hs) signUpInv_signUp h
    have hon := Runs.iff_of_run (fun s e s' hi hs => signUpInv_step hi hs) (fun s e s' hi hs => onTrack_step hi hs)
      signUpInv_signUp h
    have h0 : OnTrack (newUser user name email gender) (.signUp (some user) name email gender st userProfile) :=
      ⟨by simp [SignUpState.signUp], trivial⟩
    rw [Option.map_some, truthful_iff_onTrack hinv hend, hon, and_iff_right h0]
    refine ⟨fun hm => ⟨user, rfl, hm⟩, fun hc => ?_⟩
    obtain ⟨user', hu, hm⟩ := hc
    obtain rfl := Option.some.inj hu
    exact hm

theorem demo_truthful : ∃ s, Runs.run (SignUpState.step (some ⟨"v", none⟩) "مستخدم" "" "ذكر" nothingFails)
    (.signUp (some ⟨"v", none⟩) "مستخدم" "" "ذكر" demoStore emptyProfile)
      [.get true, .write false, .notifications] = some s ∧ s.phase = .ended ∧
    (Truthful (some (newUser ⟨"v", none⟩ "مستخدم" "" "ذكر")) s ↔ ∃ user, some ⟨"v", none⟩ = some user ∧
      Runs.Meets (SignUpState.step (some ⟨"v", none⟩) "مستخدم" "" "ذكر" nothingFails)
        (SignUpSound user "مستخدم" "" "ذكر" nothingFails)
        (.signUp (some ⟨"v", none⟩) "مستخدم" "" "ذكر" demoStore emptyProfile)
          [.get true, .write false, .notifications]) := by
  have h : (Runs.run (SignUpState.step (some ⟨"v", none⟩) "مستخدم" "" "ذكر" nothingFails)
      (.signUp (some ⟨"v", none⟩) "مستخدم" "" "ذكر" demoStore emptyProfile)
      [.get true, .write false, .notifications]).map (·.phase) = some .ended := by
    decide
  obtain ⟨s, hs, hend⟩ := Option.map_eq_some_iff.mp h
  exact ⟨s, hs, hend, truthful_iff hs hend⟩

/-- The read sees the write, which is then refused; an older document is there,
and `Navigation` opens with a profile that has not been stored. -/
theorem refused_profile_shown : ∃ s, Runs.run (SignUpState.step (some ⟨"u", none⟩) "اسم" "" "ذكر" nothingFails)
    (.signUp (some ⟨"u", none⟩) "اسم" "" "ذكر" demoStore emptyProfile) [.get true, .write true, .notifications] =
      some s ∧ s.phase = .ended ∧ s.write = .refused ∧
    ¬ Truthful (some (newUser ⟨"u", none⟩ "اسم" "" "ذكر")) s := by
  have h : (Runs.run (SignUpState.step (some ⟨"u", none⟩) "اسم" "" "ذكر" nothingFails)
      (.signUp (some ⟨"u", none⟩) "اسم" "" "ذكر" demoStore emptyProfile)
      [.get true, .write true, .notifications]).map (fun s => (s.phase, s.write, s.opened)) =
        some (.ended, .refused, some .navigation) := by
    decide
  obtain ⟨s, hs, heq⟩ := Option.map_eq_some_iff.mp h
  simp only [Prod.mk.injEq] at heq
  obtain ⟨hend, hw, hopened⟩ := heq
  refine ⟨s, hs, hend, hw, fun ht => ?_⟩
  rw [(ht.1.mp hopened).1] at hw
  cases hw

end Sayaaratukcom
