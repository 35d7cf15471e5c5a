import Sayaaratukcom.FormPages

/-!
# Guests

A guest comes to `Navigation` without a sign-in. `service` and `Orders` ask for the uid of
`userProfile`, while `WorkWithUs` and `Support` are open to everyone. What a page sends
carries the uid that `userProfile` has at that moment, whoever has opened the page.
-/

namespace Sayaaratukcom

open Documents (Doc)

/-! ## What is opened and sent -/

inductive AppPage where
  | orderService (service : ServiceModel) (fields : OrderForm)
  | support (fields : SupportForm)
  | workWithUs (fields : WorkForm)
  | orderPage
  | chat
  deriving DecidableEq

inductive PageEdit where
  | order (e : FormEdit)
  | support (e : SupportEdit)
  | work (e : WorkEdit)
  deriving DecidableEq

inductive Sent where
  | order (m : OrderModel)
  | request (m : SupportModel)
  | provider (m : ProviderModel)
  | message (m : ChatModel)
  deriving DecidableEq

def Sent.author : Sent → String
  | .order m => m.user
  | .request m => m.uid
  | .provider m => m.uid
  | .message m => m.user

def Sent.toJson : Sent → Doc
  | .order m => m.toJson
  | .request m => m.toJson
  | .provider m => m.toJson
  | .message m => m.toJson

namespace AppPage

def edit : AppPage → PageEdit → Option AppPage
  | .orderService service f, .order e => some (.orderService service (f.edit e))
  | .support f, .support e => some (.support (f.edit e))
  | .workWithUs f, .work e => some (.workWithUs (f.edit e))
  | _, _ => none

def submit (uid id : String) (now : Timestamp) : AppPage → Option Sent
  | .orderService service f =>
    if f.active then (f.args service).map fun args => .order (newOrder id uid now args) else none
  | .support f => if f.active then some (.request (newRequest uid now f.args)) else none
  | .workWithUs f => if f.active then some (.provider (newProvider uid f.args)) else none
  | .orderPage | .chat => none

/-- `sendOrder` goes on to the page of the order. -/
def opens : AppPage → List AppPage
  | .orderService _ _ => [.orderPage]
  | .support _ | .workWithUs _ | .orderPage | .chat => []

/-- The page is not open to guests; `WorkWithUs` is, but its button asks for a phone number. -/
def Gated : AppPage → Prop
  | .orderService _ _ | .orderPage | .chat => True
  | .workWithUs f => f.phone ≠ ""
  | .support _ => False

def Sound : AppPage → Prop
  | .workWithUs f => f.Applies f.phone
  | .orderService _ _ | .support _ | .orderPage | .chat => True

end AppPage

/-- `opened` are the pages that have been opened. Each may be used at any time after that,
whatever is over it and however often. -/
structure AppState where
  session : Session
  opened : List AppPage
  sent : List Sent

inductive AppAct where
  | session (a : SessionAct)
  | service (service : ServiceModel)
  | orders
  | support
  | workWithUs
  | edit (i : ℕ) (e : PageEdit)
  | press (i : ℕ) (id : String) (now : Timestamp)
  | chat (i : ℕ)
  | sendMessage (i : ℕ) (text : String) (now : Timestamp)

namespace AppState

def init (session : Session) : AppState := ⟨session, [], []⟩

def openPage (s : AppState) (page : AppPage) : AppState :=
  { s with session := s.session.push .under, opened := s.opened ++ [page] }

def step (s : AppState) : AppAct → Option AppState
  | .session a => (s.session.step a).map fun session => { s with session }
  | .service service =>
    if s.session.pages.head? = some .navigation then
      some (if s.session.userProfile.uid ≠ "" then s.openPage (.orderService service .init)
        else { s with session := s.session.push .welcome })
    else none
  | .orders =>
    -- the list of the orders is shown with a uid only
    if s.session.pages.head? = some .navigation ∧ s.session.userProfile.uid ≠ "" then some (s.openPage .orderPage)
    else none
  | .support => if s.session.pages.head? = some .navigation then some (s.openPage (.support .init)) else none
  | .workWithUs =>
    if s.session.pages.head? = some .navigation then
      some (s.openPage (.workWithUs (.init s.session.userProfile.phone)))
    else none
  | .edit i e => (s.opened[i]?.bind (·.edit e)).map fun page => { s with opened := s.opened.set i page }
  | .press i id now =>
    match s.opened[i]? with
    | none => none
    | some page => (page.submit s.session.userProfile.uid id now).map fun d =>
        { s with opened := s.opened ++ page.opens, sent := s.sent ++ [d] }
  | .chat i => if s.opened[i]? = some .orderPage then some (s.openPage .chat) else none
  | .sendMessage i text now =>
    if s.opened[i]? = some .chat then
      some { s with sent := s.sent ++ [.message ⟨s.session.userProfile.uid, text, now⟩] }
    else none

end AppState

/-! ## Who has signed in -/

def SessionAct.signsIn : SessionAct → List AuthUser
  | .verificationCompleted user | .verifyOtp (some user) _ => [user]
  | _ => []

def AppAct.signsIn : AppAct → List AuthUser
  | .session a => a.signsIn
  | _ => []

def signedIn (currentUser : Option AuthUser) (as : List AppAct) : List String :=
  (currentUser.toList ++ as.flatMap AppAct.signsIn).map AuthUser.uid

namespace Session

structure Known (uids : List String) (s : Session) : Prop where
  filed : UidsMatch s.store
  current : ∀ user ∈ s.currentUser, user.uid ∈ uids
  profile : s.userProfile = emptyProfile ∨ s.userProfile.uid ∈ uids

def Loads (uids : List String) (s s' : Session) : Prop :=
  s'.userProfile = s.userProfile ∨ s'.userProfile.uid ∈ uids

section
variable {uids uids' : List String} {s s' : Session} {a : SessionAct}

theorem Known.mono (h : s.Known uids) (hsub : uids ⊆ uids') : s.Known uids' :=
  ⟨h.filed, fun user hu => hsub (h.current user hu), h.profile.imp_right fun hp => hsub hp⟩

theorem Known.uid_mem (h : s.Known uids) (hne : s.userProfile ≠ emptyProfile) : s.userProfile.uid ∈ uids :=
  h.profile.resolve_left hne

/-- A step that changes neither the profile nor the documents of users. -/
theorem Known.keep (h : s.Known uids) (hsub : uids ⊆ uids') (hst : UidsMatch s'.store)
    (hu : ∀ user ∈ s'.currentUser, user.uid ∈ uids') (hp : s'.userProfile = s.userProfile) :
    s'.Known uids' ∧ s.Loads uids' s' :=
  ⟨⟨hst, hu, hp ▸ h.profile.imp_right fun hm => hsub hm⟩, Or.inl hp⟩

theorem known_initUser (h : s.Known uids) (x : InitInput) :
    (s.initUser x).2.Known uids ∧ s.Loads uids (s.initUser x).2 := by
  have hloads : s.Loads uids (s.initUser x).2 := by
    cases hp : (Sayaaratukcom.initUser x s.currentUser s.store).userProfile with
    | none => exact Or.inl (by simp [initUser, hp])
    | some profile =>
      cases hu : s.currentUser with
      | none =>
        rw [hu] at hp
        cases hp
      | some user =>
        rw [hu] at hp
        obtain ⟨doc, hdoc, hprofile⟩ := initUser_loaded hp
        have huid : some profile.uid = some user.uid := (uid_of_ofDoc hprofile).symm.trans (h.filed _ _ hdoc)
        have heq : (s.initUser x).2.userProfile = profile := by simp [initUser, hu, hp]
        exact Or.inr (by rw [heq, Option.some.inj huid]; exact h.current user hu)
  refine ⟨⟨uidsMatch_initUser h.filed x, h.current, ?_⟩, hloads⟩
  rcases hloads with hp | hp
  · rw [hp]
    exact h.profile
  · exact Or.inr hp

theorem known_signUp (h : s.Known uids) (name email gender : String) (setFails : Bool) (x : InitInput) :
    (s.signUp name email gender setFails x).Known uids ∧ s.Loads uids (s.signUp name email gender setFails x) := by
  unfold signUp
  split
  · exact ⟨h, Or.inl rfl⟩
  · rename_i user hu
    generalize hst : (if setFails then s.store
      else Sayaaratukcom.registerUser user.uid (user.phoneNumber.getD "") name email gender s.store) = st
    have hm : UidsMatch st := by
      rw [← hst]
      split
      · exact h.filed
      · exact uidsMatch_registerUser h.filed _ _ name email gender
    have hknown : Known uids { s with store := st } := ⟨hm, h.current, h.profile⟩
    obtain ⟨hk, hl⟩ := known_initUser hknown x
    dsimp only
    split
    · exact ⟨⟨hk.filed, hk.current, hk.profile⟩, hl⟩
    · exact ⟨hk, hl⟩

theorem known_step (h : s.Known uids) (hsub : uids ⊆ uids') (hin : ∀ user ∈ a.signsIn, user.uid ∈ uids')
    (hs : s.step a = some s') : s'.Known uids' ∧ s.Loads uids' s' := by
  have hcurrent : ∀ user ∈ s.currentUser, user.uid ∈ uids' := fun user hu => hsub (h.current user hu)
  cases a with
  | skipLogin | openPhone | verifyPhoneNumber | codeSent | openUnder | askToLogin =>
    obtain ⟨-, rfl⟩ := Option.ite_some_none_eq_some.mp hs
    exact h.keep hsub h.filed hcurrent rfl
  | verificationCompleted user =>
    obtain ⟨-, rfl⟩ := Option.ite_some_none_eq_some.mp hs
    refine h.keep hsub h.filed (fun user' hu => ?_) rfl
    obtain rfl := Option.some.inj hu
    exact hin user (List.mem_cons_self ..)
  | verifyOtp user x =>
    obtain ⟨-, hs⟩ := Option.ite_none_right_eq_some.mp hs
    cases user with
    | none =>
      obtain rfl := Option.some.inj hs
      exact h.keep hsub h.filed hcurrent rfl
    | some user =>
      obtain rfl := Option.some.inj hs
      have hknown : Known uids' { s with currentUser := some user } := by
        refine ⟨h.filed, fun user' hu => ?_, (h.mono hsub).profile⟩
        obtain rfl := Option.some.inj hu
        exact hin user (List.mem_cons_self ..)
      obtain ⟨hk, hl⟩ := known_initUser hknown x
      exact ⟨⟨hk.filed, hk.current, hk.profile⟩, hl⟩
  | signUp name email gender setFails x =>
    obtain ⟨-, rfl⟩ := Option.ite_some_none_eq_some.mp hs
    exact known_signUp (h.mono hsub) name email gender setFails x
  | back =>
    obtain rfl := step_back hs
    exact h.keep hsub h.filed hcurrent rfl
  | signOut fails =>
    obtain ⟨-, rfl⟩ := Option.ite_some_none_eq_some.mp hs
    cases fails with
    | true => exact h.keep hsub h.filed hcurrent rfl
    | false => exact h.keep hsub h.filed (fun user hu => nomatch hu) rfl
  | registerUser uid phone name email gender =>
    obtain rfl := Option.some.inj hs
    exact h.keep hsub (uidsMatch_registerUser h.filed uid phone name email gender) hcurrent rfl
  | appUpdate m =>
    obtain rfl := Option.some.inj hs
    exact h.keep hsub (uidsMatch_appUpdate h.filed m) hcurrent rfl
  | refund t now =>
    obtain rfl := Option.some.inj hs
    exact h.keep hsub (uidsMatch_refund h.filed t now) hcurrent rfl

theorem known_main {x : InitInput} {currentUser : Option AuthUser} {st : Store} (hm : UidsMatch st) :
    (main x currentUser st).Known (currentUser.toList.map AuthUser.uid) := by
  have h : Known (currentUser.toList.map AuthUser.uid) ⟨st, currentUser, emptyProfile, [], false⟩ :=
    ⟨hm, fun user hu => List.mem_map_of_mem (Option.mem_toList.mpr hu), Or.inl rfl⟩
  have hk := (known_initUser h x).1
  cases currentUser <;> exact ⟨hk.filed, hk.current, hk.profile⟩

end

end Session

/-! ## What is sent -/

namespace AppPage

variable {page page' : AppPage} {uid id : String} {now : Timestamp} {d : Sent}

theorem sound_edit {e : PageEdit} (h : page.Sound) (he : page.edit e = some page') :
    page'.Sound ∧ (page'.Gated → page.Gated) := by
  cases page <;> cases e <;> cases he
  · exact ⟨trivial, id⟩
  · exact ⟨trivial, id⟩
  · rename_i f e
    have ha := WorkForm.applies_edit h e
    refine ⟨?_, fun hg => ?_⟩
    · show (f.edit e).Applies (f.edit e).phone
      rw [ha.given]
      exact ha
    · show f.phone ≠ ""
      rw [← ha.given]
      exact hg

def call (uid id : String) (now : Timestamp) : AppPage → Option (String × Doc)
  | .orderService service f => (orderKind service uid).call f id now
  | .support f => (supportKind uid).call f id now
  | .workWithUs f => (workKind false uid f.phone).call f id now
  | .orderPage | .chat => none

theorem call_of_submit (hd : page.submit uid id now = some d) :
    (page.call uid id now).map Prod.snd = some d.toJson := by
  cases page with
  | orderService service f =>
    obtain ⟨-, hd⟩ := Option.ite_none_right_eq_some.mp hd
    obtain ⟨args, hargs, rfl⟩ := Option.map_eq_some_iff.mp hd
    simp [call, orderKind, hargs, Sent.toJson]
  | support f =>
    obtain ⟨-, hd⟩ := Option.ite_none_right_eq_some.mp hd
    obtain rfl := Option.some.inj hd
    rfl
  | workWithUs f =>
    obtain ⟨-, hd⟩ := Option.ite_none_right_eq_some.mp hd
    obtain rfl := Option.some.inj hd
    rfl
  | orderPage => cases hd
  | chat => cases hd

/-- A document has the uid for its author; a page that is open to guests sends requests only. -/
theorem author_of_submit (h : page.Sound) (hd : page.submit uid id now = some d) :
    d.author = uid ∧ (page.Gated ∨ ∃ m, d = .request m) := by
  cases page with
  | orderService service f =>
    obtain ⟨-, hd⟩ := Option.ite_none_right_eq_some.mp hd
    obtain ⟨args, -, rfl⟩ := Option.map_eq_some_iff.mp hd
    exact ⟨rfl, Or.inl trivial⟩
  | support f =>
    obtain ⟨-, hd⟩ := Option.ite_none_right_eq_some.mp hd
    obtain rfl := Option.some.inj hd
    exact ⟨rfl, Or.inr ⟨_, rfl⟩⟩
  | workWithUs f =>
    obtain ⟨ha, hd⟩ := Option.ite_none_right_eq_some.mp hd
    obtain rfl := Option.some.inj hd
    exact ⟨rfl, Or.inl (h.numbered ha)⟩
  | orderPage => cases hd
  | chat => cases hd

end AppPage

/-- The author has signed in, or the document is the request of a guest. -/
def Sent.Known (uids : List String) (d : Sent) : Prop := d.author ∈ uids ∨ d.author = "" ∧ ∃ m, d = .request m

namespace AppState

structure Inv (uids : List String) (s : AppState) : Prop where
  session : s.session.Known uids
  sound : ∀ page ∈ s.opened, page.Sound
  gated : ∀ page ∈ s.opened, page.Gated → s.session.userProfile.uid ∈ uids
  sent : ∀ d ∈ s.sent, d.Known uids

section
variable {uids uids' : List String} {s s' : AppState} {page : AppPage} {a : AppAct}

theorem Inv.mono (h : s.Inv uids) (hsub : uids ⊆ uids') : s.Inv uids' :=
  ⟨h.session.mono hsub, h.sound, fun page hp hg => hsub (h.gated page hp hg),
    fun d hd => (h.sent d hd).imp_left fun hm => hsub hm⟩

theorem Inv.opens (h : s.Inv uids) (hsound : page.Sound) (hg : page.Gated → s.session.userProfile.uid ∈ uids)
    {session : Session} (hs : session.Known uids) (hp : session.userProfile = s.session.userProfile) :
    Inv uids { s with session, opened := s.opened ++ [page] } := by
  refine ⟨hs, fun page' hm => ?_, fun page' hm hg' => ?_, h.sent⟩
  · rcases List.mem_append.mp hm with hm | hm
    · exact h.sound page' hm
    · exact List.mem_singleton.mp hm ▸ hsound
  · rw [hp]
    rcases List.mem_append.mp hm with hm | hm
    · exact h.gated page' hm hg'
    · exact hg (List.mem_singleton.mp hm ▸ hg')

theorem Inv.openPage (h : s.Inv uids) (hsound : page.Sound)
    (hg : page.Gated → s.session.userProfile.uid ∈ uids) : (s.openPage page).Inv uids :=
  h.opens hsound hg ⟨h.session.filed, h.session.current, h.session.profile⟩ rfl

theorem Inv.uid_mem (h : s.Inv uids) (hne : s.session.userProfile.uid ≠ "") :
    s.session.userProfile.uid ∈ uids :=
  h.session.uid_mem fun he => hne (by rw [he]; rfl)

theorem Inv.sends (h : s.Inv uids) {d : Sent} (hd : d.Known uids) (opened : List AppPage)
    (hopened : ∀ page ∈ opened, page.Sound ∧ (page.Gated → s.session.userProfile.uid ∈ uids)) :
    Inv uids { s with opened := s.opened ++ opened, sent := s.sent ++ [d] } := by
  refine ⟨h.session, fun page hm => ?_, fun page hm hg => ?_, fun d' hm => ?_⟩
  · exact (List.mem_append.mp hm).elim (h.sound page) fun hm => (hopened page hm).1
  · exact (List.mem_append.mp hm).elim (fun hm => h.gated page hm hg) fun hm => (hopened page hm).2 hg
  · rcases List.mem_append.mp hm with hm | hm
    · exact h.sent d' hm
    · exact List.mem_singleton.mp hm ▸ hd

theorem inv_step (h : s.Inv uids) (hsub : uids ⊆ uids') (hin : ∀ user ∈ a.signsIn, user.uid ∈ uids')
    (hs : s.step a = some s') : s'.Inv uids' := by
  cases a with
  | session a =>
    obtain ⟨session, hstep, rfl⟩ := Option.map_eq_some_iff.mp hs
    obtain ⟨hk, hl⟩ := Session.known_step h.session hsub hin hstep
    have h' := h.mono hsub
    refine ⟨hk, h'.sound, fun page hp hg => ?_, h'.sent⟩
    exact hl.elim (fun he => by rw [he]; exact h'.gated page hp hg) id
  | service service =>
    obtain ⟨-, rfl⟩ := Option.ite_some_none_eq_some.mp hs
    have h' := h.mono hsub
    split
    · rename_i hne
      exact h'.openPage trivial fun _ => h'.uid_mem hne
    · exact ⟨⟨h'.session.filed, h'.session.current, h'.session.profile⟩, h'.sound, h'.gated, h'.sent⟩
  | orders =>
    obtain ⟨⟨-, hne⟩, rfl⟩ := Option.ite_some_none_eq_some.mp hs
    have h' := h.mono hsub
    exact h'.openPage trivial fun _ => h'.uid_mem hne
  | support =>
    obtain ⟨-, rfl⟩ := Option.ite_some_none_eq_some.mp hs
    exact (h.mono hsub).openPage trivial fun hg => hg.elim
  | workWithUs =>
    obtain ⟨-, rfl⟩ := Option.ite_some_none_eq_some.mp hs
    have h' := h.mono hsub
    -- the guest's profile has no phone number
    refine h'.openPage (WorkForm.applies_init _) fun hg => h'.session.uid_mem fun he => hg ?_
    rw [he]
    rfl
  | edit i e =>
    obtain ⟨page', hpage', rfl⟩ := Option.map_eq_some_iff.mp hs
    obtain ⟨page, hpage, he⟩ := Option.bind_eq_some_iff.mp hpage'
    have h' := h.mono hsub
    have hmem := List.mem_of_getElem? hpage
    obtain ⟨hsound, hgated⟩ := AppPage.sound_edit (h'.sound page hmem) he
    refine ⟨h'.session, fun p hp => ?_, fun p hp hg => ?_, h'.sent⟩
    · rcases List.mem_or_eq_of_mem_set hp with hp | rfl
      · exact h'.sound p hp
      · exact hsound
    · rcases List.mem_or_eq_of_mem_set hp with hp | rfl
      · exact h'.gated p hp hg
      · exact h'.gated page hmem (hgated hg)
  | press i id now =>
    simp only [step] at hs
    split at hs
    · cases hs
    · rename_i page hpage
      obtain ⟨d, hd, rfl⟩ := Option.map_eq_some_iff.mp hs
      have h' := h.mono hsub
      have hmem := List.mem_of_getElem? hpage
      obtain ⟨hauthor, hcase⟩ := AppPage.author_of_submit (h'.sound page hmem) hd
      refine h'.sends ?_ page.opens fun p hp => ?_
      · rcases hcase with hg | hreq
        · exact Or.inl (hauthor ▸ h'.gated page hmem hg)
        · rcases h'.session.profile with he | hm
          · exact Or.inr ⟨by rw [hauthor, he]; rfl, hreq⟩
          · exact Or.inl (hauthor ▸ hm)
      · cases page with
        | orderService service f =>
          obtain rfl := List.mem_singleton.mp hp
          exact ⟨trivial, fun _ => h'.gated _ hmem trivial⟩
        | _ => cases hp
  | chat i =>
    obtain ⟨hpage, rfl⟩ := Option.ite_some_none_eq_some.mp hs
    have h' := h.mono hsub
    exact h'.openPage trivial fun _ => h'.gated _ (List.mem_of_getElem? hpage) trivial
  | sendMessage i text now =>
    obtain ⟨hpage, rfl⟩ := Option.ite_some_none_eq_some.mp hs
    have h' := h.mono hsub
    have hauthor : Sent.Known uids' (.message ⟨s.session.userProfile.uid, text, now⟩) :=
      Or.inl (h'.gated _ (List.mem_of_getElem? hpage) trivial)
    have hsends := h'.sends hauthor [] fun _ hp => nomatch hp
    rwa [List.append_nil] at hsends

end

end AppState

/-- Whoever uses the app, what it sends is filed under the uid of a user who has signed in
during the run, or is a guest's request for support. -/
theorem sent_by_users {st : Store} (hm : UidsMatch st) (x : InitInput) (currentUser : Option AuthUser)
    {as : List AppAct} {s : AppState}
    (h : Runs.run AppState.step (.init (Session.main x currentUser st)) as = some s) :
    ∀ d ∈ s.sent, d.Known (signedIn currentUser as) := by
  refine (Runs.run_history (R := fun s as => AppState.Inv (signedIn currentUser as) s)
    (fun s as a s' hi hs => ?_) ?_ h).sent
  · have happend : signedIn currentUser (as ++ [a]) = signedIn currentUser as ++ a.signsIn.map AuthUser.uid := by
      simp [signedIn, List.flatMap_append]
    refine AppState.inv_step hi ?_ (fun user hu => ?_) hs
    · rw [happend]
      exact List.subset_append_left ..
    · rw [happend]
      exact List.mem_append_right _ (List.mem_map_of_mem hu)
  · have hnil : signedIn currentUser [] = currentUser.toList.map AuthUser.uid := by simp [signedIn]
    rw [hnil]
    exact ⟨Session.known_main hm, fun _ hp => (nomatch hp), fun _ hp => (nomatch hp), fun _ hd => (nomatch hd)⟩

/-- A guest asks for support and is sent to `Welcome` by `service`; after the sign-in a
message is sent. -/
def demoVisit : List AppAct :=
  [.session .skipLogin, .support, .edit 0 (.support (.title "تأخر")), .edit 0 (.support (.message "لم يصل الرمز")),
   .press 0 "r" 5, .session .back, .service demoArgs.service, .session .openPhone, .session .verifyPhoneNumber,
   .session .codeSent, .session (.verifyOtp (some demoAuthUser) nothingFails), .orders, .chat 1,
   .sendMessage 2 "مرحباً" 7]

theorem demo_sent_by_users : ∃ s,
    Runs.run AppState.step (.init (Session.main nothingFails none demoStore)) demoVisit = some s ∧
      s.sent.map Sent.author = ["", "u"] ∧ ∀ d ∈ s.sent, d.Known (signedIn none demoVisit) := by
  have h : (Runs.run AppState.step (.init (Session.main nothingFails none demoStore)) demoVisit).map
      (fun s => s.sent.map Sent.author) = some ["", "u"] := by decide +kernel
  obtain ⟨s, hs, hauthors⟩ := Option.map_eq_some_iff.mp h
  exact ⟨s, hs, hauthors, sent_by_users demoStore_uidsMatch nothingFails none hs⟩

end Sayaaratukcom
