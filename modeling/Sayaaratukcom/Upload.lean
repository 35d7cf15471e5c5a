import Sayaaratukcom.Lib.Navigator
import Sayaaratukcom.Session

/-!
# Uploads

`uploadFile` opens a dialog, awaits the upload and the URL of the file, starts
the update of the document and closes the dialog by popping whatever is on top.
Nothing closes it when a step throws, the user can close it too, and success is
shown before the update has been answered.
-/

namespace Sayaaratukcom

structure PlatformFile where
  name : String
  path : Option String

def avatarPath (uid : String) (pickedFile : PlatformFile) : String := "avatars/" ++ uid ++ "/" ++ pickedFile.name

/-- `storage.rules`: `allow read, write: if false`. -/
def storageAllowsWrite (_path : String) : Bool := false

inductive UploadRoute where
  | progressDialog
  | page (page : Page)
  deriving DecidableEq

inductive UploadPhase where
  | idle
  | uploading
  | gettingUrl
  | ended
  deriving DecidableEq

structure UploadState where
  store : Store
  navigator : Navigator UploadRoute
  phase : UploadPhase
  urlDownload : Option String
  update : WriteStatus
  message : Bool -- whether success has been shown

inductive UploadEvent where
  | selectFile (result : Option PlatformFile)
  | uploaded (fails : Bool)
  | downloadUrl (url : Option String) -- none when it fails
  | updated (fails : Bool)
  | back

namespace UploadState

/-- The end of `uploadFile`; the pop of a page that is not mounted throws. -/
def closeProgressDialog (s : UploadState) : UploadState :=
  match s.navigator.popFrom (.page .navigation) with
  | none => s
  | some navigator => { s with navigator, message := true }

def step (uid : String) (s : UploadState) : UploadEvent → Option UploadState
  | .selectFile result =>
    if s.phase = .idle ∧ uid ≠ "" then
      match result with
      | none => some s
      | some pickedFile =>
        match pickedFile.path with
        | none => some { s with phase := .ended }
        | some _ => some { s with phase := .uploading, navigator := s.navigator.push .progressDialog }
    else none
  | .uploaded fails =>
    if s.phase = .uploading then some { s with phase := if fails then .ended else .gettingUrl } else none
  | .downloadUrl url =>
    if s.phase = .gettingUrl then
      match url with
      | none => some { s with phase := .ended }
      | some url => some { s with phase := .ended, urlDownload := some url, update := .pending }.closeProgressDialog
    else none
  | .updated fails =>
    match s.urlDownload with
    | none => none
    | some url =>
      if s.update = .pending then
        if fails = true ∨ s.store.users uid = none then some { s with update := .refused }
        else some { s with store := (AppUpdate.avatarUrl uid url).apply s.store, update := .committed }
      else none
  | .back =>
    match s.navigator.routes with
    | [] | .page .welcome :: _ | .page .navigation :: _ => none -- held by `PopScope`
    | _ :: _ => some { s with navigator := s.navigator.pop }

def onMore (st : Store) (below : List Page) : UploadState :=
  ⟨st, ⟨.page .navigation :: below.map .page, []⟩, .idle, none, .unsent, false⟩

end UploadState

/-! ## What an upload leaves -/

def avatarUrl (uid : String) (st : Store) : Option (Option String) := (st.users uid).map (·.avatarUrl)

/-- While the update is under way the message may still come true. -/
structure UploadConsistent (uid : String) (st : Store) (below : List Page) (s : UploadState) : Prop where
  routes : s.navigator.routes = .page .navigation :: below.map .page
  avatar : avatarUrl uid s.store = avatarUrl uid st ∨
    ∃ url, s.urlDownload = some url ∧ avatarUrl uid s.store = some (some url)
  message : s.message = true → s.update = .committed ∨ s.update = .pending

/-- A step that throws finds the dialog closed by the user, the end finds it on
top, and the update is not refused. -/
def UploadSound (uid : String) (s : UploadState) : UploadEvent → Prop
  | .uploaded fails => fails = true → s.navigator.routes.head? ≠ some .progressDialog
  | .downloadUrl none => s.navigator.routes.head? ≠ some .progressDialog
  | .downloadUrl (some _) => s.navigator.routes.head? = some .progressDialog
  | .updated fails => fails = false ∧ s.store.users uid ≠ none
  | .selectFile _ | .back => True

/-- The URL has not been given, or `uploadFile` has ended with the message. -/
def UploadSent (uid : String) (st : Store) (s : UploadState) : Prop :=
  (s.urlDownload = none ∧ s.message = false ∧ s.store = st) ∨
    ∃ url, s.phase = .ended ∧ s.urlDownload = some url ∧ s.message = true ∧
      (s.update = .pending ∧ s.store = st ∨
        s.update = .committed ∧ st.users uid ≠ none ∧ s.store = (AppUpdate.avatarUrl uid url).apply st)

structure UploadInv (uid : String) (st : Store) (below : List Page) (s : UploadState) : Prop where
  routes : s.navigator.routes = .page .navigation :: below.map .page ∨
    (s.phase = .uploading ∨ s.phase = .gettingUrl) ∧
      s.navigator.routes = .progressDialog :: .page .navigation :: below.map .page
  sent : UploadSent uid st s

section
variable {uid : String} {st : Store} {below : List Page} {s s' : UploadState} {e : UploadEvent}

theorem avatarUrl_apply {url : String} (h : st.users uid ≠ none) :
    avatarUrl uid ((AppUpdate.avatarUrl uid url).apply st) = some (some url) := by
  obtain ⟨user, hu⟩ := Option.ne_none_iff_exists'.mp h
  rw [avatarUrl, AppUpdate.apply_users, hu]
  simp [AppUpdate.uid, AppUpdate.onUser]

theorem closeProgressDialog_of_mounted (h : s.navigator.Mounted (.page .navigation)) :
    s.closeProgressDialog = { s with navigator := s.navigator.pop, message := true } := by
  rw [UploadState.closeProgressDialog, Navigator.popFrom_of_mounted h]

theorem UploadInv.mounted (hi : UploadInv uid st below s) : s.navigator.Mounted (.page .navigation) := by
  refine Or.inl ?_
  rcases hi.routes with hr | ⟨-, hr⟩
  · rw [hr]
    exact List.mem_cons_self
  · rw [hr]
    exact List.mem_cons_of_mem _ List.mem_cons_self

theorem UploadInv.unsent (hi : UploadInv uid st below s) (h : s.phase ≠ .ended) :
    s.urlDownload = none ∧ s.message = false ∧ s.store = st := by
  rcases hi.sent with hs | ⟨url, hend, -⟩
  · exact hs
  · exact absurd hend h

theorem consistent_of_uploadInv (hi : UploadInv uid st below s) (hend : s.phase = .ended) :
    UploadConsistent uid st below s := by
  refine ⟨?_, ?_, ?_⟩
  · rcases hi.routes with hr | ⟨hp | hp, -⟩
    · exact hr
    · rw [hend] at hp
      cases hp
    · rw [hend] at hp
      cases hp
  · rcases hi.sent with ⟨-, -, hst⟩ | ⟨url, -, hurl, -, ⟨-, hst⟩ | ⟨-, hu, hst⟩⟩
    · exact Or.inl (by rw [hst])
    · exact Or.inl (by rw [hst])
    · exact Or.inr ⟨url, hurl, by rw [hst, avatarUrl_apply hu]⟩
  · intro hm
    rcases hi.sent with ⟨-, hm', -⟩ | ⟨url, -, -, -, ⟨hu, -⟩ | ⟨hu, -⟩⟩
    · rw [hm'] at hm
      cases hm
    · exact Or.inr hu
    · exact Or.inl hu

theorem uploadInv_step (hi : UploadInv uid st below s) (hc : UploadSound uid s e) (h : s.step uid e = some s') :
    UploadInv uid st below s' := by
  cases e with
  | selectFile result =>
    obtain ⟨⟨hp, -⟩, h⟩ := Option.ite_none_right_eq_some.mp h
    have hr : s.navigator.routes = .page .navigation :: below.map .page := by
      simpa [hp] using hi.routes
    cases result with
    | none =>
      obtain rfl := Option.some.inj h
      exact hi
    | some pickedFile =>
      have hs := hi.unsent (by rw [hp]; decide)
      simp only at h
      split at h
      · obtain rfl := Option.some.inj h
        exact ⟨Or.inl hr, Or.inl hs⟩
      · obtain rfl := Option.some.inj h
        exact ⟨Or.inr ⟨Or.inl rfl, congrArg _ hr⟩, Or.inl hs⟩
  | uploaded fails =>
    obtain ⟨hp, h⟩ := Option.ite_none_right_eq_some.mp h
    obtain rfl := Option.some.inj h
    refine ⟨?_, Or.inl (hi.unsent (by rw [hp]; decide))⟩
    rcases hi.routes with hr | ⟨-, hr⟩
    · exact Or.inl hr
    · cases fails with
      | false => exact Or.inr ⟨Or.inr rfl, hr⟩
      | true => exact absurd (by rw [hr]; rfl) (hc rfl)
  | downloadUrl url =>
    obtain ⟨hp, h⟩ := Option.ite_none_right_eq_some.mp h
    have hs := hi.unsent (by rw [hp]; decide)
    cases url with
    | none =>
      obtain rfl := Option.some.inj h
      rcases hi.routes with hr | ⟨-, hr⟩
      · exact ⟨Or.inl hr, Or.inl hs⟩
      · exact absurd (by rw [hr]; rfl) hc
    | some url =>
      obtain rfl := Option.some.inj h
      rw [closeProgressDialog_of_mounted]
      swap
      · exact hi.mounted
      refine ⟨Or.inl ?_, Or.inr ⟨url, rfl, rfl, rfl, Or.inl ⟨rfl, hs.2.2⟩⟩⟩
      rw [Navigator.routes_pop]
      rcases hi.routes with hr | ⟨-, hr⟩
      · rw [UploadSound, hr] at hc
        cases hc
      · rw [hr]
        rfl
  | updated fails =>
    obtain ⟨hfails, hu⟩ := hc
    simp only [UploadState.step, hfails, hu, Bool.false_eq_true, or_self, if_false] at h
    split at h
    · cases h
    · rename_i url hurl
      obtain ⟨hpending, h⟩ := Option.ite_none_right_eq_some.mp h
      obtain rfl := Option.some.inj h
      refine ⟨hi.routes, ?_⟩
      rcases hi.sent with ⟨hn, -⟩ | ⟨url', hend, hurl', hm, ⟨-, hst⟩ | ⟨hcommitted, -⟩⟩
      · rw [hn] at hurl
        cases hurl
      · obtain rfl := Option.some.inj (hurl.symm.trans hurl')
        exact Or.inr ⟨url, hend, hurl, hm, Or.inr ⟨rfl, by rw [← hst]; exact hu, by rw [hst]⟩⟩
      · rw [hpending] at hcommitted
        cases hcommitted
  | back =>
    simp only [UploadState.step] at h
    rcases hi.routes with hr | ⟨hp, hr⟩
    · rw [hr] at h
      cases h
    · rw [hr] at h
      obtain rfl := Option.some.inj h
      exact ⟨Or.inl (by rw [Navigator.routes_pop, hr]; rfl), hi.sent⟩

theorem uploadSound_of_consistent (hi : UploadInv uid st below s) (h : s.step uid e = some s')
    (hp : s'.phase = .ended → UploadConsistent uid st below s') : UploadSound uid s e := by
  have hbase (hend : s'.phase = .ended) (hn : s'.navigator = s.navigator) :
      s.navigator.routes.head? ≠ some .progressDialog := by
    rw [← hn, (hp hend).routes]
    simp
  cases e with
  | selectFile result => trivial
  | back => trivial
  | uploaded fails =>
    obtain ⟨-, h⟩ := Option.ite_none_right_eq_some.mp h
    obtain rfl := Option.some.inj h
    intro hf
    exact hbase (by rw [hf]; rfl) rfl
  | downloadUrl url =>
    obtain ⟨-, h⟩ := Option.ite_none_right_eq_some.mp h
    cases url with
    | none =>
      obtain rfl := Option.some.inj h
      exact hbase rfl rfl
    | some url =>
      obtain rfl := Option.some.inj h
      rw [closeProgressDialog_of_mounted] at hp
      swap
      · exact hi.mounted
      have hroutes := (hp rfl).routes
      rw [Navigator.routes_pop] at hroutes
      rcases hi.routes with hr | ⟨-, hr⟩
      -- the dialog was closed before, and the pop has removed the page
      · have hlen := congrArg List.length hroutes
        rw [hr] at hlen
        simp at hlen
      · rw [UploadSound, hr]
        rfl
  | updated fails =>
    simp only [UploadState.step] at h
    split at h
    · cases h
    · rename_i url hurl
      obtain ⟨-, h⟩ := Option.ite_none_right_eq_some.mp h
      split at h
      · obtain rfl := Option.some.inj h
        rcases hi.sent with ⟨hn, -⟩ | ⟨url', hend, -, hm, -⟩
        · rw [hn] at hurl
          cases hurl
        · rcases (hp hend).message hm with hu | hu
          · cases hu
          · cases hu
      · rename_i hfails
        rw [not_or] at hfails
        exact ⟨by simpa using hfails.1, hfails.2⟩

end

/-- Over any pages, for every file and outcome and however the user goes back:
every end of `uploadFile` is consistent exactly in the runs in which a step that
throws finds the dialog closed, the end finds it on top, and the update lands. -/
theorem uploadConsistent_iff (uid : String) (st : Store) (below : List Page) (es : List UploadEvent) :
    Runs.AllSteps (UploadState.step uid) (fun _ _ s' => s'.phase = .ended → UploadConsistent uid st below s')
        (.onMore st below) es ↔
      Runs.Meets (UploadState.step uid) (UploadSound uid) (.onMore st below) es := by
  have h0 : UploadInv uid st below (.onMore st below) := ⟨Or.inl rfl, Or.inl ⟨rfl, rfl, rfl⟩⟩
  refine Runs.allSteps_iff_meets (fun s e s' hi hc h => ?_) (fun s e s' hi hc h => ?_) (fun s e s' hi h hp => ?_) h0
  · exact uploadInv_step hi hc h
  · exact consistent_of_uploadInv (uploadInv_step hi hc h)
  · exact uploadSound_of_consistent hi h hp

/-- The rules refuse the file, and the dialog stays. -/
theorem dialog_stays : ¬ Runs.AllSteps (UploadState.step "u")
    (fun _ _ s' => s'.phase = .ended → UploadConsistent "u" demoStore [.welcome] s') (.onMore demoStore [.welcome])
    ([.selectFile (some ⟨"me.png", some "/me.png"⟩)] ++
      [.uploaded (! storageAllowsWrite (avatarPath "u" ⟨"me.png", some "/me.png"⟩))]) := by
  intro h
  have hrun : (Runs.run (UploadState.step "u") (.onMore demoStore [.welcome])
      ([.selectFile (some ⟨"me.png", some "/me.png"⟩)] ++
        [.uploaded (! storageAllowsWrite (avatarPath "u" ⟨"me.png", some "/me.png"⟩))])).map
        (fun s => (s.phase, s.navigator.routes)) =
      some (.ended, [.progressDialog, .page .navigation, .page .welcome]) := by decide
  obtain ⟨s, hs, heq⟩ := Option.map_eq_some_iff.mp hrun
  obtain ⟨hend, hroutes⟩ := Prod.mk.inj heq
  obtain ⟨_, hc⟩ := Runs.last_of_allSteps _ hs h
  have hbase := (hc hend).routes
  rw [hroutes] at hbase
  cases hbase

end Sayaaratukcom
