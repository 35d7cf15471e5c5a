import Sayaaratukcom.SignInPages

/-!
# Whether a page is shown

`Welcome` and `Navigation` cannot be left by the back button, `Profile` can, also where
`main` has opened it as the only page: then the navigator has no page left, and nothing
that a user does brings one back. Nor does anything bring `Navigation` up once the call of
this `Profile` has failed. Of the pages that `Navigation` opens only `Welcome` is followed.
-/

namespace Sayaaratukcom

inductive StackEvent where
  | signIn (e : SignInEvent)
  | skipLogin
  | openWelcome -- by a guest, on `Navigation`
  | signOut (dialog : Bool) -- `Welcome` replaces the dialog, or without it the page that is shown
  deriving DecidableEq

namespace SignInState

def stackStep (s : SignInState) : StackEvent → Option SignInState
  | .signIn e => s.step e
  | .skipLogin => if s.pages.head? = some .welcome then some ⟨.navigation :: s.pages.tail⟩ else none
  | .openWelcome => if s.pages.head? = some .navigation then some ⟨.welcome :: s.pages⟩ else none
  | .signOut dialog =>
    if .navigation ∈ s.pages then some ⟨.welcome :: if dialog then s.pages else s.pages.tail⟩ else none

/-- A page that the back button does not close is among the pages. -/
def Held (s : SignInState) : Prop := .welcome ∈ s.pages ∨ .navigation ∈ s.pages

/-- `Profile` as `main` opens it. -/
def Sole (s : SignInState) (p : SignInPage) : Prop :=
  s.pages = [.page p] ∧ ∃ name email gender, p.form = .profile name email gender

section
variable {s s' : SignInState} {e : StackEvent} {p : SignInPage}

theorem mem_set_of_ne {α : Type*} {l : List α} {i : ℕ} {r r' q : α} (hm : r ∈ l) (hi : l[i]? = some q)
    (hr : r ≠ q) : r ∈ l.set i r' := by
  obtain ⟨j, hj⟩ := List.mem_iff_getElem?.mp hm
  have hij : i ≠ j := by
    rintro rfl
    exact hr (Option.some.inj (hj.symm.trans hi))
  exact List.mem_of_getElem? (by rw [List.getElem?_set_ne hij, hj])

/-! ## What a step does to the pages -/

theorem pagesInv_stack (hi : PagesInv s) (h : s.stackStep e = some s') : PagesInv s' := by
  cases e with
  | signIn e => exact pagesInv_step hi h
  | skipLogin =>
    obtain ⟨-, rfl⟩ := Option.ite_some_none_eq_some.mp h
    exact List.forall_mem_cons.mpr ⟨trivial, fun r hr => hi r (List.mem_of_mem_tail hr)⟩
  | openWelcome =>
    obtain ⟨-, rfl⟩ := Option.ite_some_none_eq_some.mp h
    exact List.forall_mem_cons.mpr ⟨trivial, hi⟩
  | signOut dialog =>
    obtain ⟨-, rfl⟩ := Option.ite_some_none_eq_some.mp h
    refine List.forall_mem_cons.mpr ⟨trivial, fun r hr => hi r ?_⟩
    split at hr
    · exact hr
    · exact List.mem_of_mem_tail hr

theorem held_signIn {e : SignInEvent} (hh : s.Held) (h : s.step e = some s') : s'.Held := by
  unfold Held at *
  rcases signIn_step h with ⟨-, hpages'⟩ | ⟨x, p, p', below, -, hpages, -, hpages'⟩ |
    ⟨p, p', below, -, hpages, -, hpages'⟩ | ⟨i, o, p, p', next, -, hpage, -, hpages'⟩ |
    ⟨p, below, -, hpages, hpages'⟩
  · rw [hpages']
    exact hh.imp (List.mem_cons_of_mem _) (List.mem_cons_of_mem _)
  · rw [hpages']
    simpa [hpages] using hh
  · rw [hpages']
    simpa [hpages] using hh
  · have hset : ∀ r ∈ s.pages, r ≠ .page p → r ∈ s'.pages := fun r hr hne =>
      hpages' ▸ List.mem_append_right _ (mem_set_of_ne hr hpage hne)
    exact hh.imp (fun hw => hset _ hw (by simp)) fun hn => hset _ hn (by simp)
  · rw [hpages']
    simpa [hpages] using hh

theorem held_step (hh : s.Held) (h : s.stackStep e = some s') : s'.Held := by
  cases e with
  | signIn e => exact held_signIn hh h
  | skipLogin =>
    obtain ⟨-, rfl⟩ := Option.ite_some_none_eq_some.mp h
    exact Or.inr List.mem_cons_self
  | openWelcome =>
    obtain ⟨-, rfl⟩ := Option.ite_some_none_eq_some.mp h
    exact Or.inl List.mem_cons_self
  | signOut dialog =>
    obtain ⟨-, rfl⟩ := Option.ite_some_none_eq_some.mp h
    exact Or.inl List.mem_cons_self

theorem edit_profile {x : SignInEdit} {p' : SignInPage}
    (hp : ∃ name email gender, p.form = .profile name email gender) (h : p.edit x = some p') :
    ∃ name email gender, p'.form = .profile name email gender := by
  obtain ⟨name, email, gender, hform⟩ := hp
  cases x with
  | phone text | smsCode text => simp [SignInPage.edit, hform] at h
  | name text | email text =>
    simp only [SignInPage.edit, hform] at h
    obtain rfl := Option.some.inj h
    exact ⟨_, _, _, rfl⟩
  | gender newValue =>
    simp only [SignInPage.edit, hform] at h
    obtain ⟨-, rfl⟩ := Option.ite_some_none_eq_some.mp h
    exact ⟨_, _, _, rfl⟩

theorem opens_profile {o : SignInOutcome} {next : Option SignInRoute}
    (hp : ∃ name email gender, p.form = .profile name email gender) (h : p.opens o = some next) :
    next = none ∨ next = some .navigation := by
  obtain ⟨name, email, gender, hform⟩ := hp
  cases o with
  | exception => exact Or.inl (Option.some.inj h).symm
  | initUser registered =>
    simp only [SignInPage.opens, hform] at h
    obtain rfl := Option.some.inj h
    cases registered
    · exact Or.inl rfl
    · exact Or.inr rfl
  | _ => simp [SignInPage.opens, hform] at h

/-- `Profile` stays the only page, and its call answered, or it opens `Navigation`, or it is left. -/
theorem sole_step (hi : PagesInv s) (hs : s.Sole p) (h : s.stackStep e = some s') :
    s'.Held ∧ p.call ≠ .answered ∨ (∃ p', s'.Sole p' ∧ (p.call = .answered → p'.call = .answered)) ∨
      e = .signIn .back ∧ s'.pages = [] := by
  obtain ⟨hpages, hform⟩ := hs
  have hpi : PageInv p := hi (.page p) (hpages ▸ List.mem_cons_self)
  cases e with
  | skipLogin | openWelcome | signOut dialog => simp [stackStep, hpages] at h
  | signIn e =>
    rcases signIn_step h with ⟨rfl, -⟩ | ⟨x, q, p', below, rfl, hq, hp', hpages'⟩ |
      ⟨q, p', below, rfl, hq, hp', hpages'⟩ | ⟨i, o, q, p', next, rfl, hq, hp', hpages'⟩ |
      ⟨q, below, rfl, hq, hpages'⟩
    · simp [stackStep, step, hpages] at h
    · obtain ⟨rfl, rfl⟩ : p = q ∧ below = [] := by simpa [hpages, eq_comm] using hq
      exact Or.inr (Or.inl ⟨p', ⟨hpages', edit_profile hform hp'⟩, fun hc => (call_edit hp').trans hc⟩)
    · obtain ⟨rfl, rfl⟩ : p = q ∧ below = [] := by simpa [hpages, eq_comm] using hq
      obtain ⟨⟨-, hload⟩, rfl⟩ := Option.ite_some_none_eq_some.mp hp'
      refine Or.inr (Or.inl ⟨_, ⟨hpages', hform⟩, fun hc => ?_⟩)
      rw [hpi.loading.mpr (by simp [hc])] at hload
      cases hload
    · rw [hpages] at hq hpages'
      cases i with
      | succ i => cases hq
      | zero =>
        obtain rfl := SignInRoute.page.inj (Option.some.inj hq)
        obtain ⟨haw, hopens, rfl⟩ := answer_eq_some hp'
        rcases opens_profile hform hopens with rfl | rfl
        · exact Or.inr (Or.inl ⟨_, ⟨hpages', hform⟩, fun _ => rfl⟩)
        · refine Or.inl ⟨Or.inr (hpages' ▸ List.mem_cons_self), fun hc => ?_⟩
          obtain ⟨name, email, gender, hform⟩ := hform
          simp [SignInPage.Awaits, hc, hform, SignInForm.callsBack] at haw
    · obtain ⟨-, rfl⟩ : p = q ∧ below = [] := by simpa [hpages, eq_comm] using hq
      exact Or.inr (Or.inr ⟨rfl, hpages'⟩)

theorem placed_home (currentUser : Option AuthUser) (registered : Bool) :
    PagesInv (home currentUser registered) ∧
      ((home currentUser registered).Held ∨ ∃ p, (home currentUser registered).Sole p) := by
  cases currentUser with
  | none => exact ⟨List.forall_mem_singleton.mpr trivial, Or.inl (Or.inl List.mem_cons_self)⟩
  | some user =>
    cases registered with
    | true => exact ⟨List.forall_mem_singleton.mpr trivial, Or.inl (Or.inr List.mem_cons_self)⟩
    | false => exact ⟨List.forall_mem_singleton.mpr (pageInv_new (by decide)), Or.inr ⟨_, rfl, _, _, _, rfl⟩⟩

/-- A page stays while `Profile` is not left as the only one. -/
theorem shown_step (hi : PagesInv s ∧ (s.Held ∨ ∃ p, s.Sole p))
    (hc : e = .signIn .back → ∀ p, s.pages ≠ [.page p]) (h : s.stackStep e = some s') :
    PagesInv s' ∧ (s'.Held ∨ ∃ p, s'.Sole p) := by
  obtain ⟨hi, hp⟩ := hi
  refine ⟨pagesInv_stack hi h, ?_⟩
  rcases hp with hp | ⟨p, hp⟩
  · exact Or.inl (held_step hp h)
  · rcases sole_step hi hp h with ⟨hh, -⟩ | ⟨p', hp', -⟩ | ⟨he, -⟩
    · exact Or.inl hh
    · exact Or.inr ⟨p', hp'⟩
    · exact absurd hp.1 (hc he p)

theorem ne_nil_of_held (h : s.Held) : s.pages ≠ [] := h.elim List.ne_nil_of_mem List.ne_nil_of_mem

theorem Sole.ne_nil (h : s.Sole p) : s.pages ≠ [] := by
  rw [h.1]
  simp

/-! ## Back to `Navigation` -/

end

end SignInState

/-- A page is shown at every moment of a run, exactly if the back button is never pressed on
a `Profile` that is the only page. -/
theorem page_shown_iff (currentUser : Option AuthUser) (registered : Bool) (es : List StackEvent) :
    Runs.AllSteps SignInState.stackStep (fun _ _ s' => s'.pages ≠ []) (.home currentUser registered) es ↔
      Runs.Meets SignInState.stackStep (fun s e => e = .signIn .back → ∀ p, s.pages ≠ [.page p])
        (.home currentUser registered) es := by
  refine Runs.allSteps_iff_meets (fun _ _ _ hi hc hs => SignInState.shown_step hi hc hs)
    (fun s e s' hi hc hs => ?_) (fun s e s' _ hs hne => ?_) (SignInState.placed_home currentUser registered)
  · rcases (SignInState.shown_step hi hc hs).2 with hh | ⟨p, hp⟩
    · exact SignInState.ne_nil_of_held hh
    · exact hp.ne_nil
  · rintro rfl p hp
    have hs' : s.stackStep (.signIn .back) = some ⟨[]⟩ := by simp [SignInState.stackStep, SignInState.step, hp]
    obtain rfl := Option.some.inj (hs'.symm.trans hs)
    exact hne rfl

end Sayaaratukcom
