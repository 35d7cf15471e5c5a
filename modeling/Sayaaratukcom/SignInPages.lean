import Sayaaratukcom.Account
import Sayaaratukcom.Lib.Runs

/-!
# Pages of the sign-in

`Phone`, `Verification` and `Profile` share one button: it sets `_loading`, makes
the page's call and is off while `_loading` is set. The calls open the next page
or show an error; they do not know the page that made them, and nothing on it
takes `_loading` back.
-/

namespace Sayaaratukcom

inductive SignInForm where
  | phone (phone : String)
  | verification (smsCode : String)
  | profile (name email gender : String)
  deriving DecidableEq

def SignInForm.callsBack : SignInForm → Bool
  | .phone _ => true
  | .verification _ | .profile _ _ _ => false

inductive CallStatus where
  | unsent
  | pending
  | answered
  deriving DecidableEq

structure SignInPage where
  form : SignInForm
  active : Bool
  loading : Bool
  call : CallStatus -- of the page's last call
  deriving DecidableEq

inductive SignInRoute where
  | welcome
  | page (page : SignInPage)
  | navigation
  deriving DecidableEq

inductive SignInEdit where
  | phone (text : String)
  | smsCode (text : String)
  | name (text : String)
  | email (text : String)
  | gender (newValue : String)
  deriving DecidableEq

inductive SignInOutcome where
  | exception
  | verificationFailed
  | verificationCompleted
  | codeAutoRetrievalTimeout
  | codeSent
  | initUser (registered : Bool)
  deriving DecidableEq

namespace SignInPage

def new (form : SignInForm) : SignInPage := ⟨form, false, false, .unsent⟩

def initPhone : SignInPage := new (.phone "")

def initVerification : SignInPage := new (.verification "")

def initProfile : SignInPage := new (.profile "" "" "ذكر")

def updateButton (p : SignInPage) : SignInPage :=
  { p with
    active :=
      match p.form with
      | .phone phone => phone ≠ ""
      | .verification smsCode => smsCode ≠ ""
      | .profile name _ _ => name ≠ "" }

def edit (p : SignInPage) : SignInEdit → Option SignInPage
  | .phone text =>
    match p.form with
    | .phone _ => some { p with form := .phone text }.updateButton
    | _ => none
  | .smsCode text =>
    match p.form with
    -- `Pinput` takes six characters, and tells the page only of a complete code
    | .verification _ =>
      if text.length < 6 then some { p with form := .verification text }
      else if text.length = 6 then some { p with form := .verification text }.updateButton
      else none
    | _ => none
  | .name text =>
    match p.form with
    | .profile _ email gender => some { p with form := .profile text email gender }.updateButton
    | _ => none
  | .email text =>
    match p.form with
    | .profile name _ gender => some { p with form := .profile name text gender }.updateButton
    | _ => none
  | .gender newValue =>
    match p.form with
    | .profile name email _ =>
      if newValue ∈ ["ذكر", "أنثى"] then some { p with form := .profile name email newValue } else none
    | _ => none

def Enabled (p : SignInPage) : Prop := p.active = true ∧ p.loading = false

instance (p : SignInPage) : Decidable p.Enabled := instDecidableAnd

def press (p : SignInPage) : Option SignInPage :=
  if p.Enabled then some { p with loading := true, call := .pending } else none

/-- The callbacks of `verifyPhoneNumber` may come one after the other. -/
def Awaits (p : SignInPage) : Prop := p.call = .pending ∨ p.call = .answered ∧ p.form.callsBack = true

instance (p : SignInPage) : Decidable p.Awaits := instDecidableOr

def opens (p : SignInPage) : SignInOutcome → Option (Option SignInRoute)
  | .exception => some none
  | .verificationFailed | .verificationCompleted | .codeAutoRetrievalTimeout =>
    match p.form with
    | .phone _ => some none
    | _ => none
  | .codeSent =>
    match p.form with
    | .phone _ => some (some (.page initVerification))
    | _ => none
  | .initUser registered =>
    match p.form with
    | .phone _ => none
    | .verification _ => some (some (if registered then .navigation else .page initProfile))
    | .profile _ _ _ => some (if registered then some .navigation else none)

def answer (p : SignInPage) (o : SignInOutcome) : Option (SignInPage × Option SignInRoute) :=
  if p.Awaits then (p.opens o).map fun next => ({ p with call := .answered }, next) else none

end SignInPage

inductive SignInEvent where
  | openPhone
  | edit (e : SignInEdit)
  | press
  | answer (i : ℕ) (o : SignInOutcome) -- of the call of the `i`-th page from the top
  | back
  deriving DecidableEq

structure SignInState where
  pages : List SignInRoute -- the one that is shown at the head

namespace SignInState

/-- The page that `MyApp` shows first. -/
def home (currentUser : Option AuthUser) (registered : Bool) : SignInState :=
  match currentUser with
  | none => ⟨[.welcome]⟩
  | some _ => ⟨[if registered then .navigation else .page .initProfile]⟩

def step (s : SignInState) : SignInEvent → Option SignInState
  | .openPhone =>
    match s.pages with
    | .welcome :: _ => some ⟨.page .initPhone :: s.pages⟩
    | _ => none
  | .edit e =>
    match s.pages with
    | .page p :: below => (p.edit e).map fun p => ⟨.page p :: below⟩
    | _ => none
  | .press =>
    match s.pages with
    | .page p :: below => p.press.map fun p => ⟨.page p :: below⟩
    | _ => none
  | .answer i o =>
    match s.pages[i]? with
    | some (.page p) => (p.answer o).map fun (p, next) => ⟨next.toList ++ s.pages.set i (.page p)⟩
    | _ => none
  | .back =>
    match s.pages with
    | .page _ :: below => some ⟨below⟩
    | _ => none -- `PopScope` holds the others

end SignInState

/-! ## Trying again -/

def SignInForm.Valid : SignInForm → Prop
  | .phone text => text ≠ ""
  | .verification smsCode => smsCode.length = 6
  | .profile name _ _ => name ≠ ""

instance : ∀ form : SignInForm, Decidable form.Valid
  | .phone text => inferInstanceAs (Decidable (text ≠ ""))
  | .verification smsCode => inferInstanceAs (Decidable (smsCode.length = 6))
  | .profile name _ _ => inferInstanceAs (Decidable (name ≠ ""))

/-- The page that is shown can be submitted, if its input is valid and its call
is not under way. -/
def NotStuck (s : SignInState) : Prop :=
  ∀ p, s.pages.head? = some (.page p) → p.form.Valid → p.call ≠ .pending → p.Enabled

/-- No call of the page that is shown is answered without the next page while the
input is valid, and the user neither goes back to a page whose call has been
answered nor edits one so that its input is valid. -/
def KeepsTrying (s : SignInState) : SignInEvent → Prop
  | .openPhone | .press => True
  | .edit e => ∀ p p', s.pages.head? = some (.page p) → p.edit e = some p' → p.call = .answered → ¬ p'.form.Valid
  | .answer i o => i = 0 → ∀ p, s.pages.head? = some (.page p) → p.opens o = some none → ¬ p.form.Valid
  | .back => ∀ p, s.pages.tail.head? = some (.page p) → p.call = .answered → ¬ p.form.Valid

/-- `_loading` is set by the first call and stays. -/
structure PageInv (p : SignInPage) : Prop where
  active : p.form.Valid → p.active = true
  loading : p.loading = true ↔ p.call ≠ .unsent

section
variable {p p' : SignInPage} {s s' : SignInState}

theorem pageInv_updateButton {form : SignInForm} (hi : PageInv p) : PageInv { p with form }.updateButton := by
  refine ⟨fun hv => ?_, hi.loading⟩
  cases form with
  | phone text => exact decide_eq_true hv
  | verification smsCode =>
    refine decide_eq_true fun he => ?_
    have hlen : smsCode.length = 6 := hv
    simp [he] at hlen
  | profile name email gender => exact decide_eq_true hv

theorem pageInv_new {form : SignInForm} (h : ¬ form.Valid) : PageInv (.new form) :=
  ⟨fun hv => absurd hv h, by simp [SignInPage.new]⟩

/-- An edit is followed by `updateButton`, or does not make the input valid. -/
theorem edit_cases {e : SignInEdit} (h : p.edit e = some p') :
    ∃ form, p' = { p with form }.updateButton ∨ p' = { p with form } ∧ (form.Valid → p.form.Valid) := by
  cases e with
  | phone text =>
    simp only [SignInPage.edit] at h
    split at h
    · exact ⟨_, Or.inl (Option.some.inj h).symm⟩
    · cases h
  | smsCode text =>
    simp only [SignInPage.edit] at h
    split at h
    · split_ifs at h with hlt
      · exact ⟨.verification text, Or.inr ⟨(Option.some.inj h).symm, fun hv => absurd hv (Nat.ne_of_lt hlt)⟩⟩
      · exact ⟨_, Or.inl (Option.some.inj h).symm⟩
    · cases h
  | name text =>
    simp only [SignInPage.edit] at h
    split at h
    · exact ⟨_, Or.inl (Option.some.inj h).symm⟩
    · cases h
  | email text =>
    simp only [SignInPage.edit] at h
    split at h
    · exact ⟨_, Or.inl (Option.some.inj h).symm⟩
    · cases h
  | gender newValue =>
    simp only [SignInPage.edit] at h
    split at h
    · rename_i name email gender hform
      obtain ⟨-, rfl⟩ := Option.ite_some_none_eq_some.mp h
      refine ⟨_, Or.inr ⟨rfl, fun hv => ?_⟩⟩
      rw [hform]
      exact hv
    · cases h

theorem pageInv_edit {e : SignInEdit} (hi : PageInv p) (h : p.edit e = some p') : PageInv p' := by
  obtain ⟨form, rfl | ⟨rfl, hform⟩⟩ := edit_cases h
  · exact pageInv_updateButton hi
  · exact ⟨fun hv => hi.active (hform hv), hi.loading⟩

theorem call_edit {e : SignInEdit} (h : p.edit e = some p') : p'.call = p.call := by
  obtain ⟨form, rfl | ⟨rfl, -⟩⟩ := edit_cases h
  · rfl
  · rfl

theorem pageInv_press (hi : PageInv p) (h : p.press = some p') : PageInv p' := by
  obtain ⟨-, rfl⟩ := Option.ite_some_none_eq_some.mp h
  exact ⟨hi.active, by simp⟩

theorem answer_eq_some {o : SignInOutcome} {next : Option SignInRoute} (h : p.answer o = some (p', next)) :
    p.Awaits ∧ p.opens o = some next ∧ p' = { p with call := .answered } := by
  obtain ⟨haw, h⟩ := Option.ite_none_right_eq_some.mp h
  obtain ⟨next', hopens, heq⟩ := Option.map_eq_some_iff.mp h
  obtain ⟨rfl, rfl⟩ := Prod.mk.inj heq
  exact ⟨haw, hopens, rfl⟩

theorem pageInv_answer {o : SignInOutcome} {next : Option SignInRoute} (hi : PageInv p)
    (h : p.answer o = some (p', next)) : PageInv p' := by
  obtain ⟨haw, -, rfl⟩ := answer_eq_some h
  refine ⟨hi.active, iff_of_true (hi.loading.mpr ?_) (by simp)⟩
  rcases haw with hc | ⟨hc, -⟩
  · simp [hc]
  · simp [hc]

def RouteInv : SignInRoute → Prop
  | .page p => PageInv p
  | .welcome | .navigation => True

def PagesInv (s : SignInState) : Prop := ∀ r ∈ s.pages, RouteInv r

theorem opens_new {o : SignInOutcome} {r : SignInRoute} (h : p.opens o = some (some r)) :
    r = .navigation ∨ ∃ form, ¬ form.Valid ∧ r = .page (.new form) := by
  cases hform : p.form with
  | phone phone =>
    cases o with
    | codeSent =>
      obtain rfl : r = _ := by simpa [SignInPage.opens, hform] using h.symm
      exact Or.inr ⟨_, by decide, rfl⟩
    | _ => simp [SignInPage.opens, hform] at h
  | verification smsCode =>
    cases o with
    | initUser registered =>
      obtain rfl : r = _ := by simpa [SignInPage.opens, hform] using h.symm
      cases registered with
      | true => exact Or.inl rfl
      | false => exact Or.inr ⟨_, by decide, rfl⟩
    | _ => simp [SignInPage.opens, hform] at h
  | profile name email gender =>
    cases o with
    | initUser registered =>
      cases registered with
      | true => exact Or.inl (by simpa [SignInPage.opens, hform] using h.symm)
      | false => simp [SignInPage.opens, hform] at h
    | _ => simp [SignInPage.opens, hform] at h

theorem signIn_step {e : SignInEvent} (h : s.step e = some s') :
    (e = .openPhone ∧ s'.pages = .page .initPhone :: s.pages) ∨
    (∃ x p p' below, e = .edit x ∧ s.pages = .page p :: below ∧ p.edit x = some p' ∧ s'.pages = .page p' :: below) ∨
    (∃ p p' below, e = .press ∧ s.pages = .page p :: below ∧ p.press = some p' ∧ s'.pages = .page p' :: below) ∨
    (∃ i o p p' next, e = .answer i o ∧ s.pages[i]? = some (.page p) ∧ p.answer o = some (p', next) ∧
      s'.pages = next.toList ++ s.pages.set i (.page p')) ∨
    ∃ p below, e = .back ∧ s.pages = .page p :: below ∧ s'.pages = below := by
  cases e with
  | openPhone =>
    simp only [SignInState.step] at h
    split at h
    · obtain rfl := Option.some.inj h
      exact Or.inl ⟨rfl, rfl⟩
    · cases h
  | edit x =>
    simp only [SignInState.step] at h
    split at h
    · rename_i p below hpages
      obtain ⟨p', hp', rfl⟩ := Option.map_eq_some_iff.mp h
      exact Or.inr (Or.inl ⟨x, p, p', below, rfl, hpages, hp', rfl⟩)
    · cases h
  | press =>
    simp only [SignInState.step] at h
    split at h
    · rename_i p below hpages
      obtain ⟨p', hp', rfl⟩ := Option.map_eq_some_iff.mp h
      exact Or.inr (Or.inr (Or.inl ⟨p, p', below, rfl, hpages, hp', rfl⟩))
    · cases h
  | answer i o =>
    simp only [SignInState.step] at h
    split at h
    · rename_i p hpage
      obtain ⟨⟨p', next⟩, hp', rfl⟩ := Option.map_eq_some_iff.mp h
      exact Or.inr (Or.inr (Or.inr (Or.inl ⟨i, o, p, p', next, rfl, hpage, hp', rfl⟩)))
    · cases h
  | back =>
    simp only [SignInState.step] at h
    split at h
    · rename_i p below hpages
      obtain rfl := Option.some.inj h
      exact Or.inr (Or.inr (Or.inr (Or.inr ⟨p, below, rfl, hpages, rfl⟩)))
    · cases h

theorem pagesInv_step {e : SignInEvent} (hi : PagesInv s) (h : s.step e = some s') : PagesInv s' := by
  unfold PagesInv at *
  rcases signIn_step h with ⟨-, hpages'⟩ | ⟨x, p, p', below, -, hpages, hp', hpages'⟩ |
    ⟨p, p', below, -, hpages, hp', hpages'⟩ | ⟨i, o, p, p', next, -, hpage, hp', hpages'⟩ |
    ⟨p, below, -, hpages, hpages'⟩
  · rw [hpages', List.forall_mem_cons]
    exact ⟨pageInv_new (by decide), hi⟩
  · rw [hpages, List.forall_mem_cons] at hi
    rw [hpages', List.forall_mem_cons]
    exact ⟨pageInv_edit hi.1 hp', hi.2⟩
  · rw [hpages, List.forall_mem_cons] at hi
    rw [hpages', List.forall_mem_cons]
    exact ⟨pageInv_press hi.1 hp', hi.2⟩
  · rw [hpages', List.forall_mem_append]
    refine ⟨fun r hr => ?_, fun r hr => ?_⟩
    · obtain ⟨-, hopens, -⟩ := answer_eq_some hp'
      rw [Option.mem_toList.mp hr] at hopens
      rcases opens_new hopens with rfl | ⟨form, hform, rfl⟩
      · trivial
      · exact pageInv_new hform
    · rcases List.mem_or_eq_of_mem_set hr with hr | rfl
      · exact hi r hr
      · exact pageInv_answer (hi _ (List.mem_of_getElem? hpage)) hp'
  · rw [hpages, List.forall_mem_cons] at hi
    rw [hpages']
    exact hi.2

def Unanswered (s : SignInState) : Prop :=
  ∀ p, s.pages.head? = some (.page p) → p.call = .answered → ¬ p.form.Valid

theorem unanswered_cons {below : List SignInRoute} (h : s.pages = .page p :: below) :
    Unanswered s ↔ (p.call = .answered → ¬ p.form.Valid) := by
  simp [Unanswered, h]

theorem notStuck_iff_unanswered (hi : PagesInv s) : NotStuck s ↔ Unanswered s := by
  refine ⟨fun h p hp hcall hv => ?_, fun h p hp hv hcall => ?_⟩
  · have hpi : PageInv p := hi _ (List.mem_of_head? hp)
    have hset := hpi.loading.mpr (by simp [hcall])
    rw [(h p hp hv (by simp [hcall])).2] at hset
    cases hset
  · have hpi : PageInv p := hi _ (List.mem_of_head? hp)
    refine ⟨hpi.active hv, Bool.eq_false_iff.mpr fun hload => ?_⟩
    cases hc : p.call with
    | unsent => exact hpi.loading.mp hload hc
    | pending => exact hcall hc
    | answered => exact h p hp hc hv

theorem unanswered_answer {i : ℕ} {o : SignInOutcome} {next : Option SignInRoute} (hu : Unanswered s)
    (hpage : s.pages[i]? = some (.page p)) (hopens : p.opens o = some next)
    (hpages' : s'.pages = next.toList ++ s.pages.set i (.page { p with call := .answered })) :
    Unanswered s' ↔ KeepsTrying s (.answer i o) := by
  have hkeeps : KeepsTrying s (.answer i o) ↔ (i = 0 → next = none → ¬ p.form.Valid) := by
    refine ⟨fun hc hi hnext => ?_, fun hc hi q hq hnone => ?_⟩
    · subst hi
      exact hc rfl p (by rw [List.head?_eq_getElem?, hpage]) (by rw [hopens, hnext])
    · subst hi
      rw [List.head?_eq_getElem?, hpage] at hq
      obtain rfl := SignInRoute.page.inj (Option.some.inj hq)
      exact hc rfl (Option.some.inj (hopens.symm.trans hnone))
  rw [hkeeps]
  cases next with
  | some r =>
    refine iff_of_true (fun q hq hcall => ?_) fun _ hnext => by cases hnext
    rw [hpages'] at hq
    rcases opens_new hopens with rfl | ⟨form, -, rfl⟩
    · cases hq
    · obtain rfl := SignInRoute.page.inj (Option.some.inj hq)
      cases hcall
  | none =>
    obtain ⟨r, below, hpages⟩ := List.exists_cons_of_length_pos
      (Nat.zero_lt_of_lt (List.getElem?_eq_some_iff.mp hpage).1)
    rw [hpages] at hpage hpages'
    cases i with
    | zero =>
      -- the page that is shown has been answered, and stays
      obtain rfl := Option.some.inj hpage
      rw [unanswered_cons hpages']
      exact ⟨fun hc _ _ => hc rfl, fun hc _ => hc rfl rfl⟩
    | succ i =>
      refine iff_of_true (fun q hq => hu q ?_) fun hi => absurd hi (Nat.succ_ne_zero i)
      rw [hpages'] at hq
      rw [hpages]
      exact hq

theorem unanswered_step {e : SignInEvent} (hu : Unanswered s) (h : s.step e = some s') :
    Unanswered s' ↔ KeepsTrying s e := by
  rcases signIn_step h with ⟨rfl, hpages'⟩ | ⟨x, p, p', below, rfl, hpages, hp', hpages'⟩ |
    ⟨p, p', below, rfl, hpages, hp', hpages'⟩ | ⟨i, o, p, p', next, rfl, hpage, hp', hpages'⟩ |
    ⟨p, below, rfl, hpages, hpages'⟩
  · rw [unanswered_cons hpages']
    exact iff_of_true (fun hcall => by cases hcall) trivial
  · rw [unanswered_cons hpages', call_edit hp']
    refine ⟨fun hc q q' hq hq' hcall => ?_, fun hc => hc p p' (by rw [hpages]; rfl) hp'⟩
    rw [hpages] at hq
    obtain rfl := SignInRoute.page.inj (Option.some.inj hq)
    obtain rfl := Option.some.inj (hp'.symm.trans hq')
    exact hc hcall
  · obtain ⟨-, rfl⟩ := Option.ite_some_none_eq_some.mp hp'
    rw [unanswered_cons hpages']
    exact iff_of_true (fun hcall => by cases hcall) trivial
  · obtain ⟨-, hopens, rfl⟩ := answer_eq_some hp'
    exact unanswered_answer hu hpage hopens hpages'
  · simp [Unanswered, KeepsTrying, hpages, hpages']

end

/-- From any start of the app: the page that is shown can be submitted, whenever
its input is valid and its call is not under way, exactly in the runs in which no
call of it fails and the user does not come back to it. -/
theorem notStuck_iff (currentUser : Option AuthUser) (registered : Bool) (es : List SignInEvent) :
    Runs.AllSteps SignInState.step (fun _ _ s' => NotStuck s') (.home currentUser registered) es ↔
      Runs.Meets SignInState.step KeepsTrying (.home currentUser registered) es := by
  have h0 : PagesInv (.home currentUser registered) ∧ Unanswered (.home currentUser registered) := by
    cases currentUser with
    | none => exact ⟨by simp [PagesInv, SignInState.home, RouteInv], by simp [Unanswered, SignInState.home]⟩
    | some user =>
      cases registered with
      | true => exact ⟨by simp [PagesInv, SignInState.home, RouteInv], by simp [Unanswered, SignInState.home]⟩
      | false =>
        refine ⟨fun r hr => ?_, fun p hp hcall => ?_⟩
        · obtain rfl := List.mem_singleton.mp hr
          exact pageInv_new (by decide)
        · obtain rfl := SignInRoute.page.inj (Option.some.inj hp)
          cases hcall
  refine Runs.allSteps_iff_meets (I := fun s => PagesInv s ∧ Unanswered s) ?_ ?_ ?_ h0
  · intro s e s' hi hc h
    exact ⟨pagesInv_step hi.1 h, (unanswered_step hi.2 h).mpr hc⟩
  · intro s e s' hi hc h
    exact (notStuck_iff_unanswered (pagesInv_step hi.1 h)).mpr ((unanswered_step hi.2 h).mpr hc)
  · intro s e s' hi h hn
    have hi' := pagesInv_step hi.1 h
    exact (unanswered_step hi.2 h).mp ((notStuck_iff_unanswered hi').mp hn)

/-- `verifyPhoneNumber` refuses the number, and the button stays off. -/
theorem phone_stuck : ¬ Runs.AllSteps SignInState.step (fun _ _ s' => NotStuck s') (.home none false)
    ([.openPhone, .edit (.phone "500000000"), .press] ++ [.answer 0 .verificationFailed]) := by
  intro h
  have hrun : (Runs.run SignInState.step (.home none false)
      ([.openPhone, .edit (.phone "500000000"), .press] ++ [.answer 0 .verificationFailed])).map
        (fun s => s.pages.head?) = some (some (.page ⟨.phone "500000000", true, true, .answered⟩)) := by decide
  obtain ⟨s, hs, hp⟩ := Option.map_eq_some_iff.mp hrun
  obtain ⟨_, hn⟩ := Runs.last_of_allSteps _ hs h
  have henabled := hn _ hp (by decide) (by decide)
  revert henabled
  decide

end Sayaaratukcom
