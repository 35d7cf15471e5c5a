import Mathlib.Data.List.Basic

/-!
# Runs of a labelled system

`run step` takes the labels of a run in order; it ends in `none` when a label
is not enabled. `AllSteps` speaks of every step of a run with the states on
its two sides, and `Meets` restricts a run to steps taken under a condition.
Invariants, step laws and images are carried along a run by one induction
each, so a system only has to look at its single steps.
-/

namespace Runs

variable {σ α : Type*} (step : σ → α → Option σ)

def run : σ → List α → Option σ
  | s, [] => some s
  | s, a :: as => (step s a).bind fun s' => run s' as

/-- `P` holds of every step of the run of `as` from `s`, up to the first label
that is not enabled. -/
def AllSteps (P : σ → α → σ → Prop) : σ → List α → Prop
  | _, [] => True
  | s, a :: as =>
    match step s a with
    | none => True
    | some s' => P s a s' ∧ AllSteps P s' as

abbrev Meets (C : σ → α → Prop) : σ → List α → Prop :=
  AllSteps step fun s a _ => C s a

instance decidableAllSteps (P : σ → α → σ → Prop) [∀ s a s', Decidable (P s a s')] :
    ∀ (s : σ) (as : List α), Decidable (AllSteps step P s as)
  | _, [] => isTrue trivial
  | s, a :: as =>
    match h : step s a with
    | none => isTrue (by simp [AllSteps, h])
    | some s' =>
      have := decidableAllSteps P s' as
      decidable_of_iff (P s a s' ∧ AllSteps step P s' as) (by simp [AllSteps, h])

@[simp] theorem run_nil (s : σ) : run step s [] = some s := rfl

theorem run_cons (s : σ) (a : α) (as : List α) :
    run step s (a :: as) = (step s a).bind fun s' => run step s' as := rfl

theorem run_cons_eq_some {s t : σ} {a : α} {as : List α} :
    run step s (a :: as) = some t ↔ ∃ s', step s a = some s' ∧ run step s' as = some t := by
  rw [run_cons, Option.bind_eq_some_iff]

theorem allSteps_cons {P : σ → α → σ → Prop} {s s' : σ} {a : α} {as : List α} (h : step s a = some s') :
    AllSteps step P s (a :: as) ↔ P s a s' ∧ AllSteps step P s' as := by
  rw [AllSteps, h]

theorem meets_true (s : σ) (as : List α) : Meets step (fun _ _ => True) s as := by
  induction as generalizing s with
  | nil => trivial
  | cons a as ih =>
    rw [Meets, AllSteps]
    cases step s a with
    | none => trivial
    | some s' => exact ⟨trivial, ih s'⟩

theorem meets_mem (s : σ) (as : List α) : Meets step (fun _ a => a ∈ as) s as := by
  have h : ∀ (bs : List α) (s : σ), bs ⊆ as → Meets step (fun _ a => a ∈ as) s bs := by
    intro bs
    induction bs with
    | nil => exact fun _ _ => trivial
    | cons b bs ih =>
      intro s hsub
      rw [Meets, AllSteps]
      cases step s b with
      | none => trivial
      | some s' => exact ⟨hsub List.mem_cons_self, ih s' fun a ha => hsub (List.mem_cons_of_mem _ ha)⟩
  exact h as s fun _ ha => ha

theorem run_append (s : σ) (as bs : List α) :
    run step s (as ++ bs) = (run step s as).bind fun s' => run step s' bs := by
  induction as generalizing s with
  | nil => rfl
  | cons a as ih =>
    rw [List.cons_append, run_cons, run_cons, Option.bind_assoc]
    congr 1
    funext s'
    exact ih s'

theorem run_snoc_eq_some {s t : σ} {as : List α} {a : α} :
    run step s (as ++ [a]) = some t ↔ ∃ s', run step s as = some s' ∧ step s' a = some t := by
  rw [run_append, Option.bind_eq_some_iff]
  simp [run_cons]

theorem allSteps_append {P : σ → α → σ → Prop} {as bs : List α} :
    ∀ {s t : σ}, run step s as = some t → AllSteps step P s (as ++ bs) →
      AllSteps step P s as ∧ AllSteps step P t bs := by
  induction as with
  | nil =>
    intro s t hr h
    obtain rfl := Option.some.inj hr
    exact ⟨trivial, h⟩
  | cons a as ih =>
    intro s t hr h
    obtain ⟨s', hs, hr'⟩ := (run_cons_eq_some step).mp hr
    rw [List.cons_append, allSteps_cons step hs] at h
    obtain ⟨h1, h2⟩ := ih hr' h.2
    exact ⟨(allSteps_cons step hs).mpr ⟨h.1, h1⟩, h2⟩

theorem last_of_allSteps {P : σ → α → σ → Prop} {as : List α} {a : α} {s t : σ}
    (hr : run step s (as ++ [a]) = some t) (h : AllSteps step P s (as ++ [a])) : ∃ s', P s' a t := by
  obtain ⟨s', hs, ha⟩ := (run_snoc_eq_some step).mp hr
  exact ⟨s', ((allSteps_cons step ha).mp (allSteps_append step hs h).2).1⟩

variable {step}

/-- An invariant kept by every step that meets `C` holds after every run whose
steps all meet `C`. -/
theorem inv_run {I : σ → Prop} {C : σ → α → Prop}
    (hI : ∀ s a s', I s → C s a → step s a = some s' → I s') {as : List α} :
    ∀ {s t : σ}, I s → Meets step C s as → run step s as = some t → I t := by
  induction as with
  | nil =>
    intro s t h0 _ hr
    obtain rfl := Option.some.inj hr
    exact h0
  | cons a as ih =>
    intro s t h0 hm hr
    obtain ⟨s', hs, hr'⟩ := (run_cons_eq_some step).mp hr
    obtain ⟨hC, hm'⟩ := (allSteps_cons step hs).mp hm
    exact ih (hI _ _ _ h0 hC hs) hm' hr'

theorem inv_run_free {I : σ → Prop} (hI : ∀ s a s', I s → step s a = some s' → I s') {as : List α} {s t : σ}
    (h0 : I s) (hr : run step s as = some t) : I t :=
  inv_run (fun s a s' hs _ h => hI s a s' hs h) h0 (meets_true step s as) hr

/-- A relation that every step keeps with the fold of `f` is kept by runs. -/
theorem run_foldl {τ : Type*} {R : σ → τ → Prop} {f : τ → α → τ}
    (hR : ∀ s t a s', R s t → step s a = some s' → R s' (f t a)) {as : List α} :
    ∀ {s s' : σ} {t : τ}, R s t → run step s as = some s' → R s' (as.foldl f t) := by
  induction as with
  | nil =>
    intro s s' t h0 hr
    obtain rfl := Option.some.inj hr
    exact h0
  | cons a as ih =>
    intro s s' t h0 hr
    obtain ⟨s₁, hs, hr'⟩ := (run_cons_eq_some step).mp hr
    exact ih (hR _ _ _ _ h0 hs) hr'

/-- A relation of states to the labels that have led there. -/
theorem run_history {R : σ → List α → Prop} (hR : ∀ s as a s', R s as → step s a = some s' → R s' (as ++ [a]))
    {s t : σ} {as : List α} (h0 : R s []) (hr : run step s as = some t) : R t as := by
  have h : ∀ (bs : List α) {as : List α} {s t : σ}, R s as → run step s bs = some t → R t (as ++ bs) := by
    intro bs
    induction bs with
    | nil =>
      intro as s t h0 hr
      obtain rfl := Option.some.inj hr
      rwa [List.append_nil]
    | cons b bs ih =>
      intro as s t h0 hr
      obtain ⟨s', hs, hr'⟩ := (run_cons_eq_some step).mp hr
      have h1 := ih (hR _ _ _ _ h0 hs) hr'
      rwa [List.append_assoc] at h1
  exact h as h0 hr

/-- With an invariant that the steps with `P` keep, `P` of every step gives `Q` of
every step. -/
theorem AllSteps.mono_of_inv {I : σ → Prop} {P Q : σ → α → σ → Prop}
    (hI : ∀ s a s', I s → step s a = some s' → P s a s' → I s')
    (hQ : ∀ s a s', I s → step s a = some s' → P s a s' → Q s a s') {as : List α} :
    ∀ {s : σ}, I s → AllSteps step P s as → AllSteps step Q s as := by
  induction as with
  | nil => intro s _ _; trivial
  | cons a as ih =>
    intro s h0 hp
    cases hs : step s a with
    | none => simp [AllSteps, hs]
    | some s' =>
      obtain ⟨h1, h2⟩ := (allSteps_cons step hs).mp hp
      exact (allSteps_cons step hs).mpr ⟨hQ _ _ _ h0 hs h1, ih (hI _ _ _ h0 hs h1) h2⟩

theorem allSteps_of_inv {I : σ → Prop} {C : σ → α → Prop} {P : σ → α → σ → Prop}
    (hI : ∀ s a s', I s → C s a → step s a = some s' → I s')
    (hP : ∀ s a s', I s → C s a → step s a = some s' → P s a s') {as : List α} {s : σ} (h0 : I s)
    (hm : Meets step C s as) : AllSteps step P s as :=
  AllSteps.mono_of_inv (fun s a s' hs h hC => hI s a s' hs hC h) (fun s a s' hs h hC => hP s a s' hs hC h) h0 hm

theorem AllSteps.mono {P Q : σ → α → σ → Prop} (h : ∀ s a s', step s a = some s' → P s a s' → Q s a s')
    {as : List α} {s : σ} (hp : AllSteps step P s as) : AllSteps step Q s as :=
  AllSteps.mono_of_inv (I := fun _ => True) (fun _ _ _ _ _ _ => trivial) (fun s a s' _ hs hP => h s a s' hs hP)
    trivial hp

/-- With an invariant that the steps under `C` keep, and which makes `P` and `C`
equivalent at a step, they are equivalent along runs. -/
theorem allSteps_iff_meets {I : σ → Prop} {C : σ → α → Prop} {P : σ → α → σ → Prop}
    (hI : ∀ s a s', I s → C s a → step s a = some s' → I s')
    (hP : ∀ s a s', I s → C s a → step s a = some s' → P s a s')
    (hC : ∀ s a s', I s → step s a = some s' → P s a s' → C s a) {as : List α} {s : σ} (h0 : I s) :
    AllSteps step P s as ↔ Meets step C s as := by
  refine ⟨AllSteps.mono_of_inv (fun s a s' hi hs hp => ?_) hC h0, allSteps_of_inv hI hP h0⟩
  exact hI s a s' hi (hC s a s' hi hs hp) hs

/-- A property that every step keeps or brings about exactly under `C`. -/
theorem iff_of_run {I G : σ → Prop} {C : σ → α → Prop} (hI : ∀ s a s', I s → step s a = some s' → I s')
    (hG : ∀ s a s', I s → step s a = some s' → (G s' ↔ G s ∧ C s a)) {as : List α} :
    ∀ {s t : σ}, I s → run step s as = some t → (G t ↔ G s ∧ Meets step C s as) := by
  induction as with
  | nil =>
    intro s t _ hr
    obtain rfl := Option.some.inj hr
    exact (and_iff_left trivial).symm
  | cons a as ih =>
    intro s t h0 hr
    obtain ⟨s', hs, hr'⟩ := (run_cons_eq_some step).mp hr
    rw [ih (hI _ _ _ h0 hs) hr', hG _ _ _ h0 hs, Meets, allSteps_cons step hs, and_assoc]

/-- Where every step towards `G` makes `m` smaller, some run leads there. -/
theorem reach_of_measure {I G : σ → Prop} (m : σ → ℕ)
    (h : ∀ s, I s → ¬ G s → ∃ a s', step s a = some s' ∧ I s' ∧ m s' < m s) (s : σ) (h0 : I s) :
    ∃ as t, run step s as = some t ∧ I t ∧ G t := by
  by_cases hg : G s
  · exact ⟨[], s, rfl, h0, hg⟩
  · obtain ⟨a, s', hs, h1, hlt⟩ := h s h0 hg
    obtain ⟨as, t, hr, ht⟩ := reach_of_measure m h s' h1
    exact ⟨a :: as, t, (run_cons_eq_some step).mpr ⟨s', hs, hr⟩, ht⟩
termination_by m s

/-! ## What a run gives off -/

section
variable {β : Type*}

/-- What `f` gives at the steps of the run. -/
def collect (step : σ → α → Option σ) (f : σ → α → Option β) : σ → List α → List β
  | _, [] => []
  | s, a :: as =>
    match step s a with
    | none => []
    | some s' => (f s a).toList ++ collect step f s' as

theorem collect_cons {f : σ → α → Option β} {s s' : σ} {a : α} {as : List α} (h : step s a = some s') :
    collect step f s (a :: as) = (f s a).toList ++ collect step f s' as := by
  rw [collect, h]

/-- A relation that every step keeps with what it gives off is kept by runs. -/
theorem run_collect {τ : Type*} {R : σ → τ → Prop} {C : σ → α → Prop} {f : σ → α → Option β} {g : τ → β → τ}
    (hR : ∀ s t a s', R s t → C s a → step s a = some s' → R s' ((f s a).toList.foldl g t)) {as : List α} :
    ∀ {s s' : σ} {t : τ}, R s t → Meets step C s as → run step s as = some s' →
      R s' ((collect step f s as).foldl g t) := by
  induction as with
  | nil =>
    intro s s' t h0 _ hr
    obtain rfl := Option.some.inj hr
    exact h0
  | cons a as ih =>
    intro s s' t h0 hm hr
    obtain ⟨s₁, hs, hr'⟩ := (run_cons_eq_some step).mp hr
    obtain ⟨hC, hm'⟩ := (allSteps_cons step hs).mp hm
    rw [collect_cons hs, List.foldl_append]
    exact ih (hR _ _ _ _ h0 hC hs) hm' hr'

/-- Where each step, seen through `g`, is the one of `step'` that it gives or changes nothing, every
run is a run of `step'`. -/
theorem run_refines {τ : Type*} {step' : τ → β → Option τ} {g : σ → τ} {f : σ → α → Option β} {I : σ → Prop}
    (hI : ∀ s a s', I s → step s a = some s' → I s')
    (hf : ∀ s a s', I s → step s a = some s' → run step' (g s) (f s a).toList = some (g s')) {as : List α} :
    ∀ {s s' : σ}, I s → run step s as = some s' → run step' (g s) (collect step f s as) = some (g s') := by
  induction as with
  | nil =>
    intro s s' _ hr
    exact congrArg (fun o => o.map g) hr
  | cons a as ih =>
    intro s s' h0 hr
    obtain ⟨s₁, hs, hr'⟩ := (run_cons_eq_some step).mp hr
    rw [collect_cons hs, run_append, hf _ _ _ h0 hs, Option.bind_some]
    exact ih (hI _ _ _ h0 hs) hr'

/-- When each step accounts for what it takes in, so does the run: it has been given off,
or is held in the end. -/
theorem collect_balance (held : σ → List β) {input output : σ → α → Option β}
    (hstep : ∀ s a s', step s a = some s' →
      (held s ++ (input s a).toList).Perm ((output s a).toList ++ held s')) {as : List α} :
    ∀ {s t : σ}, run step s as = some t →
      (held s ++ collect step input s as).Perm (collect step output s as ++ held t) := by
  induction as with
  | nil =>
    intro s t hr
    obtain rfl := Option.some.inj hr
    exact List.perm_append_comm
  | cons a as ih =>
    intro s t hr
    obtain ⟨s', hs, hr'⟩ := (run_cons_eq_some step).mp hr
    rw [collect_cons hs, collect_cons hs, ← List.append_assoc]
    refine ((hstep s a s' hs).append_right _).trans ?_
    rw [List.append_assoc, List.append_assoc]
    exact (ih hr').append_left _

end

/-! ## Last values -/

section
variable {β : Type*}

/-- The last value that the labels give. -/
def last (g : α → Option β) (as : List α) : Option β := (as.filterMap g).getLast?

theorem last_cons (g : α → Option β) (a : α) (as : List α) : last g (a :: as) = (last g as).or (g a) := by
  rw [last, List.filterMap_cons]
  cases g a with
  | none => simp [last]
  | some b =>
    simp only [List.getLast?_cons, last]
    cases (as.filterMap g).getLast? <;> rfl

theorem last_map {γ : Type*} (f : β → γ) (g : α → Option β) (as : List α) :
    last (fun a => (g a).map f) as = (last g as).map f := by
  rw [last, last, ← List.getLast?_map, List.map_filterMap]

/-- A field that every step sets to what its label gives, or leaves. -/
theorem run_last {field : σ → Option β} {g : α → Option β}
    (h : ∀ s a s', step s a = some s' → field s' = (g a).or (field s)) {as : List α} :
    ∀ {s t : σ}, run step s as = some t → field t = (last g as).or (field s) := by
  induction as with
  | nil =>
    intro s t hr
    obtain rfl := Option.some.inj hr
    rfl
  | cons a as ih =>
    intro s t hr
    obtain ⟨s', hs, hr'⟩ := (run_cons_eq_some step).mp hr
    rw [ih hr', h _ _ _ hs, last_cons, Option.or_assoc]

theorem foldl_last {field : σ → β} {g : α → Option β} {f : σ → α → σ}
    (h : ∀ s a, field (f s a) = (g a).getD (field s)) (as : List α) :
    ∀ s : σ, field (as.foldl f s) = (last g as).getD (field s) := by
  induction as with
  | nil => intro s; rfl
  | cons a as ih =>
    intro s
    rw [List.foldl_cons, ih, h, last_cons]
    cases last g as <;> rfl

end

end Runs
