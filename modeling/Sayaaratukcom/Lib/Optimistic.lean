import Mathlib.Data.List.Induction
import Mathlib.Data.List.Nodup
import Mathlib.Logic.Function.Basic
import Sayaaratukcom.Lib.Runs

/-!
# Optimistic transactions

A handler reads something outside any transaction (`start`), then runs a
transaction: it reads the documents it needs (`view`), computes a write from
what it has read (`body`), and commits only if these documents are still
unchanged; otherwise it reads again. Other writers change the store at any
time. Every run is serializable: the store is what the committed transactions
and the other updates produce one after the other, in commit order. An attempt
in vain is paid for by what has been written meanwhile, and handlers that are
left alone commit at the next.
-/

namespace Optimistic

/-- `σ` stores, `ε` events, `τ` tasks, `ν` what each attempt draws afresh,
`ρ` the documents read, `μ` updates by others. -/
structure System (σ ε τ ν ρ μ : Type*) where
  start : ε → σ → Option τ
  view : τ → σ → ρ
  body : τ → ν → ρ → Option (σ → σ)
  other : μ → σ → σ

inductive Phase (τ ν ρ : Type*) where
  | idle
  | ready (t : τ)
  | reading (t : τ) (n : ν) (r : ρ)
  | committed (t : τ) (n : ν)
  | ended

def Phase.task {τ ν ρ : Type*} : Phase τ ν ρ → Option τ
  | .ready t | .reading t _ _ | .committed t _ => some t
  | .idle | .ended => none

inductive Act (ι ε ν μ : Type*) where
  | enter (i : ι) (e : ε)
  | read (i : ι) (n : ν)
  | commit (i : ι)
  | abort (i : ι)
  | fail (i : ι)
  | update (m : μ)

inductive Entry (ι τ ν μ : Type*) where
  | commit (i : ι) (t : τ) (n : ν)
  | update (m : μ)

structure State (ι σ τ ν ρ μ : Type*) where
  store : σ
  phase : ι → Phase τ ν ρ
  log : List (Entry ι τ ν μ)

def State.init {ι σ τ ν ρ μ : Type*} (s : σ) : State ι σ τ ν ρ μ := ⟨s, fun _ => .idle, []⟩

def Act.update? {ι ε ν μ : Type*} : Act ι ε ν μ → Option μ
  | .update m => some m
  | _ => none

def Entry.update? {ι τ ν μ : Type*} : Entry ι τ ν μ → Option μ
  | .commit _ _ _ => none
  | .update m => some m

def committers {ι τ ν μ : Type*} (log : List (Entry ι τ ν μ)) : List ι :=
  log.filterMap fun e => match e with | .commit i _ _ => some i | .update _ => none

@[simp] theorem committers_append {ι τ ν μ : Type*} (log log' : List (Entry ι τ ν μ)) :
    committers (log ++ log') = committers log ++ committers log' := List.filterMap_append

theorem mem_committers {ι τ ν μ : Type*} {log : List (Entry ι τ ν μ)} {i : ι} :
    i ∈ committers log ↔ ∃ t n, Entry.commit i t n ∈ log := by
  simp only [committers, List.mem_filterMap]
  constructor
  · intro h
    obtain ⟨e, he, hi⟩ := h
    cases e with
    | commit j t n => exact ⟨t, n, Option.some.inj hi ▸ he⟩
    | update m => cases hi
  · intro hp
    obtain ⟨t, n, h⟩ := hp
    exact ⟨_, h, rfl⟩

/-- The log holds each committed handler once, with the task and the draw it
committed with, and no other handler. -/
structure LogInv {ι σ τ ν ρ μ : Type*} (s : State ι σ τ ν ρ μ) : Prop where
  nodup : (committers s.log).Nodup
  mem : ∀ i t n, Entry.commit i t n ∈ s.log ↔ s.phase i = .committed t n

theorem logInv_init {ι σ τ ν ρ μ : Type*} (s₀ : σ) : LogInv (State.init s₀ : State ι σ τ ν ρ μ) :=
  ⟨List.nodup_nil, by simp [State.init]⟩

section
variable {ι σ ε τ ν ρ μ : Type*} [DecidableEq ι]

def State.goto (s : State ι σ τ ν ρ μ) (i : ι) (p : Phase τ ν ρ) : State ι σ τ ν ρ μ :=
  { s with phase := Function.update s.phase i p }

theorem State.goto_self (s : State ι σ τ ν ρ μ) (i : ι) (p : Phase τ ν ρ) : (s.goto i p).phase i = p :=
  Function.update_self ..

theorem State.goto_of_ne (s : State ι σ τ ν ρ μ) {i j : ι} (h : j ≠ i) (p : Phase τ ν ρ) :
    (s.goto i p).phase j = s.phase j := Function.update_of_ne h ..

variable [DecidableEq ρ] (S : System σ ε τ ν ρ μ)

def step (s : State ι σ τ ν ρ μ) : Act ι ε ν μ → Option (State ι σ τ ν ρ μ)
  | .enter i e =>
    match s.phase i with
    | .idle => some (s.goto i (match S.start e s.store with | some t => .ready t | none => .ended))
    | _ => none
  | .read i n =>
    match s.phase i with
    | .ready t => some (s.goto i (.reading t n (S.view t s.store)))
    | _ => none
  | .commit i =>
    match s.phase i with
    | .reading t n r =>
      if S.view t s.store = r then
        (S.body t n r).map fun f =>
          { s.goto i (.committed t n) with store := f s.store, log := s.log ++ [.commit i t n] }
      else none
    | _ => none
  | .abort i =>
    match s.phase i with
    | .reading t _ _ => some (s.goto i (.ready t))
    | _ => none
  | .fail i =>
    match s.phase i with
    | .ready _ | .reading _ _ _ => some (s.goto i .ended)
    | _ => none
  | .update m => some { s with store := S.other m s.store, log := s.log ++ [.update m] }

def atomically (t : τ) (n : ν) (s : σ) : Option σ := (S.body t n (S.view t s)).map fun f => f s

def apply (s : σ) : Entry ι τ ν μ → Option σ
  | .commit _ t n => atomically S t n s
  | .update m => some (S.other m s)

variable {S}

/-- What a step does to the store, the phases and the log: it moves one handler
without touching the store, or it appends one entry and applies it. -/
theorem step_cases {s s' : State ι σ τ ν ρ μ} {a : Act ι ε ν μ} (h : step S s a = some s') :
    (∃ i p, s' = s.goto i p ∧ (∀ t n, s.phase i ≠ .committed t n) ∧ (∀ t n, p ≠ .committed t n) ∧
        (∀ t, p.task = some t → (s.phase i).task = some t ∨ ∃ e, a = .enter i e ∧ S.start e s.store = some t) ∧
        (∀ j, a ≠ .commit j) ∧ a.update? = none ∧ p ≠ .idle ∧
        ∀ j e, a = .enter j e → j = i ∧ s.phase i = .idle) ∨
    (∃ i t n r, a = .commit i ∧ s.phase i = .reading t n r ∧ atomically S t n s.store = some s'.store ∧
        s'.phase = Function.update s.phase i (.committed t n) ∧ s'.log = s.log ++ [.commit i t n]) ∨
    (∃ m, a = .update m ∧ s' = { s with store := S.other m s.store, log := s.log ++ [.update m] }) := by
  cases a with
  | enter i e =>
    simp only [step] at h
    split at h
    · rename_i hp
      refine Or.inl ⟨i, _, (Option.some.inj h).symm, by simp [hp], ?_, ?_, by simp, rfl, ?_, ?_⟩
      · cases S.start e s.store <;> simp
      · intro t ht
        cases hs : S.start e s.store with
        | none => rw [hs] at ht; cases ht
        | some t' => rw [hs] at ht; exact Or.inr ⟨e, rfl, hs.trans ht⟩
      · cases S.start e s.store <;> simp
      · intro j e' ha
        obtain ⟨rfl, -⟩ := Act.enter.inj ha
        exact ⟨rfl, hp⟩
    · cases h
  | read i n =>
    simp only [step] at h
    split at h
    · rename_i t hp
      exact Or.inl ⟨i, _, (Option.some.inj h).symm, by simp [hp], by simp, by simp [hp, Phase.task], by simp,
        rfl, by simp, by simp⟩
    · cases h
  | commit i =>
    simp only [step] at h
    split at h
    · rename_i t n r hp
      split at h
      · rename_i hv
        obtain ⟨f, hf, rfl⟩ := Option.map_eq_some_iff.mp h
        exact Or.inr (Or.inl ⟨i, t, n, r, rfl, hp, by rw [atomically, hv, hf]; rfl, rfl, rfl⟩)
      · cases h
    · cases h
  | abort i =>
    simp only [step] at h
    split at h
    · rename_i t n r hp
      exact Or.inl ⟨i, _, (Option.some.inj h).symm, by simp [hp], by simp, by simp [hp, Phase.task], by simp,
        rfl, by simp, by simp⟩
    · cases h
  | fail i =>
    simp only [step] at h
    split at h
    · rename_i t hp
      exact Or.inl ⟨i, _, (Option.some.inj h).symm, by simp [hp], by simp, by simp [hp, Phase.task], by simp,
        rfl, by simp, by simp⟩
    · rename_i t n r hp
      exact Or.inl ⟨i, _, (Option.some.inj h).symm, by simp [hp], by simp, by simp [hp, Phase.task], by simp,
        rfl, by simp, by simp⟩
    · cases h
  | update m => exact Or.inr (Or.inr ⟨m, rfl, (Option.some.inj h).symm⟩)

/-! ## Serializability -/

theorem serializable_step {s₀ : σ} {s s' : State ι σ τ ν ρ μ} {a : Act ι ε ν μ}
    (hs : Runs.run (apply S) s₀ s.log = some s.store) (h : step S s a = some s') :
    Runs.run (apply S) s₀ s'.log = some s'.store := by
  rcases step_cases h with ⟨i, p, rfl, -⟩ | ⟨i, t, n, r, -, -, hb, -, hl⟩ | ⟨m, -, rfl⟩
  · exact hs
  · rw [hl, Runs.run_append, hs, Option.bind_some, Runs.run_cons, apply, hb]
    rfl
  · rw [Runs.run_append, hs]
    rfl

theorem serializable {s₀ : σ} {s : State ι σ τ ν ρ μ} {as : List (Act ι ε ν μ)}
    (h : Runs.run (step S) (State.init s₀) as = some s) : Runs.run (apply S) s₀ s.log = some s.store :=
  Runs.inv_run_free (I := fun s => Runs.run (apply S) s₀ s.log = some s.store)
    (fun _ _ _ hs h => serializable_step hs h) rfl h

theorem logInv_step {s s' : State ι σ τ ν ρ μ} {a : Act ι ε ν μ} (hi : LogInv s)
    (h : step S s a = some s') : LogInv s' := by
  rcases step_cases h with ⟨i, p, rfl, hp, hq, -⟩ | ⟨i, t, n, r, -, hp, -, hph, hl⟩ | ⟨m, -, rfl⟩
  · refine ⟨hi.nodup, fun j t n => (hi.mem j t n).trans ?_⟩
    by_cases hj : j = i
    · subst hj
      simp [State.goto, hp, hq]
    · simp [State.goto, Function.update_of_ne hj]
  · have hni : i ∉ committers s.log := by
      intro hm
      obtain ⟨t', n', hm⟩ := mem_committers.mp hm
      rw [(hi.mem i t' n').mp hm] at hp
      cases hp
    refine ⟨?_, fun j t' n' => ?_⟩
    · rw [hl, committers_append]
      exact List.nodup_append_comm.mp (List.nodup_cons.mpr ⟨hni, hi.nodup⟩)
    · rw [hl, hph, List.mem_append, hi.mem]
      by_cases hj : j = i
      · subst hj
        simp [hp, eq_comm]
      · simp [hj]
  · refine ⟨?_, fun j t n => ?_⟩
    · rw [committers_append]
      simpa [committers] using hi.nodup
    · simpa using hi.mem j t n

theorem logInv_run {s₀ : σ} {s : State ι σ τ ν ρ μ} {as : List (Act ι ε ν μ)}
    (h : Runs.run (step S) (State.init s₀) as = some s) : LogInv s :=
  Runs.inv_run_free (fun _ _ _ hi h => logInv_step hi h) (logInv_init s₀) h

theorem updates_run {s₀ : σ} {as : List (Act ι ε ν μ)} : ∀ {s : State ι σ τ ν ρ μ},
    Runs.run (step S) (State.init s₀) as = some s →
      s.log.filterMap Entry.update? = as.filterMap Act.update? := by
  induction as using List.reverseRecOn with
  | nil =>
    intro s h
    obtain rfl := Option.some.inj h
    rfl
  | append_singleton as a ih =>
    intro s' h
    obtain ⟨s, hs, h⟩ := (Runs.run_snoc_eq_some _).mp h
    rw [List.filterMap_append, ← ih hs]
    rcases step_cases h with ⟨i, p, rfl, -, -, -, -, ha, -⟩ | ⟨i, t, n, r, rfl, -, -, -, hl⟩ | ⟨m, rfl, rfl⟩
    · simp [State.goto, ha]
    · rw [hl, List.filterMap_append]
      rfl
    · rw [List.filterMap_append]
      rfl

/-! ## Events and tasks -/

/-- A task is what `start` has made of an event entered for its handler, on stores with an
invariant that bodies and updates keep. -/
theorem task_run {I : σ → Prop} {P : ε → τ → Prop} {s₀ : σ} (h0 : I s₀)
    (hbody : ∀ t n s s', I s → atomically S t n s = some s' → I s') (hother : ∀ m s, I s → I (S.other m s))
    (hstart : ∀ e s t, I s → S.start e s = some t → P e t) {s : State ι σ τ ν ρ μ} {as : List (Act ι ε ν μ)}
    (h : Runs.run (step S) (State.init s₀) as = some s) :
    ∀ i t, (s.phase i).task = some t → ∃ e, Act.enter i e ∈ as ∧ P e t := by
  refine (Runs.run_history (R := fun s as => I s.store ∧
    ∀ i t, (s.phase i).task = some t → ∃ e, Act.enter i e ∈ as ∧ P e t) (fun s as a s' hi h => ?_)
    ⟨h0, fun _ _ h => by cases h⟩ h).2
  obtain ⟨hI, hP⟩ := hi
  have hold : ∀ j t, (s.phase j).task = some t → ∃ e, Act.enter j e ∈ as ++ [a] ∧ P e t := by
    intro j t hj
    obtain ⟨e, he, hp⟩ := hP j t hj
    exact ⟨e, List.mem_append_left _ he, hp⟩
  rcases step_cases h with ⟨i, p, rfl, -, -, hp, -⟩ | ⟨i, t, n, r, -, hp, hb, hph, -⟩ | ⟨m, -, rfl⟩
  · refine ⟨hI, fun j t hj => ?_⟩
    by_cases hji : j = i
    · subst hji
      rw [State.goto_self] at hj
      rcases hp t hj with h' | ⟨e, rfl, h'⟩
      · exact hold j t h'
      · exact ⟨e, List.mem_append_right _ List.mem_cons_self, hstart e s.store t hI h'⟩
    · rw [State.goto_of_ne _ hji] at hj
      exact hold j t hj
  · refine ⟨hbody t n s.store s'.store hI hb, fun j t' hj => ?_⟩
    rw [hph] at hj
    by_cases hji : j = i
    · subst hji
      rw [Function.update_self] at hj
      exact hold j t' (by rw [hp]; exact hj)
    · rw [Function.update_of_ne hji] at hj
      exact hold j t' hj
  · exact ⟨hother m s.store hI, hold⟩

/-- A handler that is idle has not been entered, and none is entered with two events. -/
structure Entered (i : ι) (s : State ι σ τ ν ρ μ) (as : List (Act ι ε ν μ)) : Prop where
  idle : s.phase i = .idle → ∀ e, Act.enter i e ∉ as
  unique : ∀ e e', Act.enter i e ∈ as → Act.enter i e' ∈ as → e = e'

section
variable {s s' : State ι σ τ ν ρ μ} {as : List (Act ι ε ν μ)} {a : Act ι ε ν μ} {i : ι} {e : ε}

omit [DecidableEq ι] [DecidableEq ρ] in
theorem Entered.keep (h : Entered i s as) (ha : ∀ e, a ≠ .enter i e)
    (hp : s'.phase i = .idle → s.phase i = .idle) : Entered i s' (as ++ [a]) := by
  have hmem : ∀ e, Act.enter i e ∈ as ++ [a] → Act.enter i e ∈ as := by
    intro e hm
    rcases List.mem_append.mp hm with hm | hm
    · exact hm
    · exact absurd (List.mem_singleton.mp hm).symm (ha e)
  exact ⟨fun hi e hm => h.idle (hp hi) e (hmem e hm),
    fun e e' hm hm' => h.unique e e' (hmem e hm) (hmem e' hm')⟩

omit [DecidableEq ι] [DecidableEq ρ] in
theorem Entered.enter (h : Entered i s as) (hi : s.phase i = .idle) (hp : s'.phase i ≠ .idle) :
    Entered i s' (as ++ [.enter i e]) := by
  have hnew : ∀ e', Act.enter i e' ∈ as ++ [.enter i e] → e' = e := by
    intro e' hm
    rcases List.mem_append.mp hm with hm | hm
    · exact absurd hm (h.idle hi e')
    · exact (Act.enter.inj (List.mem_singleton.mp hm)).2
  exact ⟨fun hi' => absurd hi' hp, fun e₁ e₂ h₁ h₂ => (hnew e₁ h₁).trans (hnew e₂ h₂).symm⟩

theorem entered_step (hi : Entered i s as) (h : step S s a = some s') : Entered i s' (as ++ [a]) := by
  rcases step_cases h with ⟨k, p, rfl, -, -, -, -, -, hp, henter⟩ | ⟨k, t, n, r, rfl, -, -, hph, -⟩ | ⟨m, rfl, rfl⟩
  · by_cases hk : i = k
    · subst hk
      rw [← State.goto_self s i p] at hp
      by_cases ha : ∃ e, a = .enter i e
      · obtain ⟨e, rfl⟩ := ha
        exact hi.enter (henter i e rfl).2 hp
      · exact hi.keep (fun e he => ha ⟨e, he⟩) fun hidle => absurd hidle hp
    · exact hi.keep (fun e ha => hk (henter i e ha).1) fun hidle => by rwa [State.goto_of_ne _ hk] at hidle
  · refine hi.keep (fun e ha => by cases ha) fun hidle => ?_
    by_cases hk : i = k
    · subst hk
      rw [hph, Function.update_self] at hidle
      cases hidle
    · rwa [hph, Function.update_of_ne hk] at hidle
  · exact hi.keep (fun e ha => by cases ha) id

theorem enter_unique {s₀ : σ} (h : Runs.run (step S) (State.init s₀) as = some s) {e' : ε}
    (he : Act.enter i e ∈ as) (he' : Act.enter i e' ∈ as) : e = e' := by
  have h0 : Entered i (State.init s₀ : State ι σ τ ν ρ μ) ([] : List (Act ι ε ν μ)) :=
    ⟨fun _ _ hm => (nomatch hm), fun _ _ hm => (nomatch hm)⟩
  exact (Runs.run_history (fun _ _ _ _ hi hs => entered_step hi hs) h0 h).unique e e' he he'

end

/-! ## Conflicts -/

variable (S)

/-- Counts an attempt that has read what is no longer there. -/
def stale (s : σ) : Phase τ ν ρ → ℕ
  | .reading t _ r => if S.view t s = r then 0 else 1
  | .idle | .ready _ | .committed _ _ | .ended => 0

/-- Handler `i` gives up an attempt that could not have been committed. -/
def conflict (i : ι) (s : State ι σ τ ν ρ μ) : Act ι ε ν μ → Option ι
  | .abort j => if j = i ∧ stale S s.store (s.phase i) = 1 then some i else none
  | _ => none

/-- Handler `i` has no task but `t`, and has had no more conflicts than there are entries in the
log that touch what `t` reads. -/
structure Conflicts (touch : Entry ι τ ν μ → Bool) (t : τ) (i : ι) (s : State ι σ τ ν ρ μ) (n : ℕ) : Prop where
  task : ∀ t', (s.phase i).task = some t' → t' = t
  le : n + stale S s.store (s.phase i) ≤ s.log.countP touch

variable {S}

section
variable {touch : Entry ι τ ν μ → Bool} {t : τ} {s s' : State ι σ τ ν ρ μ} {i j : ι} {n : ℕ} {p : Phase τ ν ρ}

theorem stale_le_one (st : σ) : stale S st p ≤ 1 := by
  cases p with
  | reading t n r =>
    simp only [stale]
    split <;> omega
  | _ => exact Nat.zero_le _

theorem Conflicts.goto_of_ne (h : Conflicts S touch t i s n) (hj : i ≠ j) :
    Conflicts S touch t i (s.goto j p) n := by
  constructor
  · rw [State.goto_of_ne s hj]
    exact h.task
  · rw [State.goto_of_ne s hj]
    exact h.le

/-- A phase that has read nothing, or has just read. -/
theorem Conflicts.goto_self {m : ℕ} (hp : ∀ t', p.task = some t' → t' = t) (hs : stale S s.store p = 0)
    (hm : m ≤ s.log.countP touch) : Conflicts S touch t i (s.goto i p) m := by
  constructor
  · rw [State.goto_self]
    exact hp
  · rw [State.goto_self]
    exact hs.symm ▸ hm

variable (htouch : ∀ e s s', apply S s e = some s' → touch e = false → S.view t s' = S.view t s)

include htouch

omit [DecidableEq ι] in
/-- What another handler or the app writes makes at most one attempt stale, if it touches what has
been read. -/
theorem Conflicts.write {e : Entry ι τ ν μ} (h : Conflicts S touch t i s n)
    (he : apply S s.store e = some s'.store) (hp : s'.phase i = s.phase i) (hl : s'.log = s.log ++ [e]) :
    Conflicts S touch t i s' n := by
  constructor
  · rw [hp]
    exact h.task
  · have hb := h.le
    rw [hp, hl, List.countP_append, List.countP_singleton]
    by_cases hte : touch e = true
    · have hs := stale_le_one (S := S) (p := s.phase i) s'.store
      rw [if_pos hte]
      omega
    · have hv := htouch e _ _ he (Bool.eq_false_iff.mpr hte)
      have hs : stale S s'.store (s.phase i) = stale S s.store (s.phase i) := by
        cases hq : s.phase i with
        | reading t' d r =>
          obtain rfl := h.task t' (by rw [hq]; rfl)
          simp only [stale, hv]
        | _ => rfl
      omega

theorem conflicts_step {a : Act ι ε ν μ} (h : Conflicts S touch t i s n)
    (ha : ∀ e, a = .enter i e → ∀ t', S.start e s.store = some t' → t' = t) (hs : step S s a = some s') :
    Conflicts S touch t i s' (n + (conflict S i s a).toList.length) := by
  have hn : n ≤ s.log.countP touch := Nat.le_trans (Nat.le_add_right ..) h.le
  cases a with
  | enter j e =>
    simp only [step] at hs
    split at hs
    · obtain rfl := Option.some.inj hs
      by_cases hj : i = j
      · subst hj
        cases ht : S.start e s.store with
        | none => exact Conflicts.goto_self (fun _ ht => by cases ht) rfl hn
        | some t' => exact Conflicts.goto_self (fun _ ht' => Option.some.inj ht' ▸ ha e rfl t' ht) rfl hn
      · exact h.goto_of_ne hj
    · cases hs
  | read j d =>
    simp only [step] at hs
    split at hs
    · rename_i t' hp
      obtain rfl := Option.some.inj hs
      by_cases hj : i = j
      · subst hj
        exact Conflicts.goto_self (fun t' ht => h.task t' (by rw [hp]; exact ht)) (if_pos rfl) hn
      · exact h.goto_of_ne hj
    · cases hs
  | commit j =>
    rcases step_cases hs with ⟨_, _, -, -, -, -, hj, -⟩ | ⟨k, t', d, r, -, hp, hb, hph, hl⟩ | ⟨m, hm, -⟩
    · exact absurd rfl (hj j)
    · by_cases hj : i = k
      · subst hj
        constructor
        · rw [hph, Function.update_self]
          exact fun t' ht => h.task t' (by rw [hp]; exact ht)
        · rw [hph, Function.update_self, hl, List.countP_append]
          exact Nat.le_add_right_of_le hn
      · exact h.write htouch (e := .commit k t' d) hb (by rw [hph, Function.update_of_ne hj]) hl
    · cases hm
  | abort j =>
    simp only [step] at hs
    split at hs
    · rename_i t' d r hp
      obtain rfl := Option.some.inj hs
      by_cases hj : i = j
      · subst hj
        refine Conflicts.goto_self (fun t' ht => h.task t' (by rw [hp]; exact ht)) rfl ?_
        have hb := h.le
        rw [conflict]
        split
        · rename_i hc
          rw [hc.2] at hb
          exact hb
        · exact hn
      · rw [conflict, if_neg fun hc => hj hc.1.symm]
        exact h.goto_of_ne hj
    · cases hs
  | fail j =>
    have hend : ∀ j, Conflicts S touch t i (s.goto j .ended) n := by
      intro j
      by_cases hj : i = j
      · subst hj
        exact Conflicts.goto_self (fun _ ht => by cases ht) rfl hn
      · exact h.goto_of_ne hj
    simp only [step] at hs
    split at hs
    · exact Option.some.inj hs ▸ hend j
    · exact Option.some.inj hs ▸ hend j
    · cases hs
  | update m =>
    obtain rfl := Option.some.inj hs
    exact h.write htouch (e := .update m) rfl rfl rfl

/-- Each attempt that a handler makes in vain is paid for by an entry of the log, also when it
then fails. -/
theorem conflicts_le {I : σ → Prop} {s₀ : σ} (h0 : I s₀)
    (hbody : ∀ t n s s', I s → atomically S t n s = some s' → I s') (hother : ∀ m s, I s → I (S.other m s))
    {e : ε} (hstart : ∀ s t', I s → S.start e s = some t' → t' = t) {as : List (Act ι ε ν μ)}
    (h : Runs.run (step S) (State.init s₀) as = some s) (he : Act.enter i e ∈ as) :
    (Runs.collect (step S) (conflict S i) (State.init s₀) as).length ≤ s.log.countP touch := by
  have hm : Runs.Meets (step S) (fun s a => ∀ e, a = .enter i e → ∀ t', S.start e s.store = some t' → t' = t)
      (State.init s₀) as := by
    refine Runs.allSteps_of_inv (I := fun s => I s.store) (C := fun _ a => a ∈ as) (fun s a s' hi _ hs => ?_)
      (fun s a s' hi ha hs e' hae t' ht => ?_) h0 (Runs.meets_mem _ _ as)
    · rcases step_cases hs with ⟨i, p, rfl, -⟩ | ⟨i, t, n, r, -, -, hb, -⟩ | ⟨m, -, rfl⟩
      · exact hi
      · exact hbody t n s.store s'.store hi hb
      · exact hother m s.store hi
    · subst hae
      obtain rfl := enter_unique h he ha
      exact hstart s.store t' hi ht
  have hc := Runs.run_collect (R := Conflicts S touch t i) (f := conflict S i) (g := fun n _ => n + 1)
    (s := .init s₀) (t := 0) ?_ ⟨fun _ ht => (nomatch ht), Nat.zero_le _⟩ hm h
  · rw [List.foldl_add_const, Nat.one_mul, Nat.zero_add] at hc
    exact Nat.le_trans (Nat.le_add_right ..) hc.le
  · intro s n a s' hc ha hs
    rw [List.foldl_add_const, Nat.one_mul]
    exact conflicts_step htouch hc ha hs

end

/-! ## Completion -/

/-- The attempts that handler `i` has begun. -/
def tries (i : ι) (as : List (Act ι ε ν μ)) : ℕ :=
  as.countP fun a => match a with | .read j _ => j = i | _ => false

/-- No handler has begun more than `m` attempts. -/
def Limited (m : ℕ) (as : List (Act ι ε ν μ)) : Prop := ∀ i, tries i as ≤ m

theorem tries_append (i : ι) (as bs : List (Act ι ε ν μ)) : tries i (as ++ bs) = tries i as + tries i bs :=
  List.countP_append

/-- The task of a handler that has neither committed nor ended. -/
def Phase.pending : Phase τ ν ρ → Option τ
  | .ready t | .reading t _ _ => some t
  | .idle | .committed _ _ | .ended => none

section
variable {s s' : State ι σ τ ν ρ μ} {i : ι} {t : τ} {n : ν}

theorem commit_ready (hp : s.phase i = .ready t) {st : σ} (hb : atomically S t n s.store = some st) :
    Runs.run (step S) s [.read i n, .commit i] =
      some ⟨st, Function.update s.phase i (.committed t n), s.log ++ [.commit i t n]⟩ := by
  obtain ⟨f, hf, rfl⟩ := Option.map_eq_some_iff.mp hb
  have hr : step S s (.read i n) = some (s.goto i (.reading t n (S.view t s.store))) := by simp only [step, hp]
  rw [Runs.run_cons, hr, Option.bind_some, Runs.run_cons]
  simp [step, State.goto, hf, Runs.run]

/-- A handler that is left alone reads once more and commits. -/
theorem commit_alone (hp : (s.phase i).pending = some t) {st : σ} (hb : atomically S t n s.store = some st) :
    ∃ as, as.length ≤ 3 ∧ (∀ j, tries j as = if i = j then 1 else 0) ∧ Runs.run (step S) s as =
      some ⟨st, Function.update s.phase i (.committed t n), s.log ++ [.commit i t n]⟩ := by
  cases hq : s.phase i with
  | ready t' =>
    rw [hq] at hp
    obtain rfl := Option.some.inj hp
    exact ⟨_, by simp, fun j => by simp [tries, List.countP_cons], commit_ready hq hb⟩
  | reading t' d r =>
    rw [hq] at hp
    obtain rfl := Option.some.inj hp
    have ha : step S s (.abort i) = some (s.goto i (.ready t')) := by simp only [step, hq]
    have hc := commit_ready (S := S) (n := n) (State.goto_self s i (.ready t')) hb
    refine ⟨.abort i :: [.read i n, .commit i], by simp, fun j => by simp [tries, List.countP_cons], ?_⟩
    rw [Runs.run_cons, ha, Option.bind_some, hc]
    simp [State.goto]
  | idle => rw [hq] at hp; cases hp
  | committed t' d => rw [hq] at hp; cases hp
  | ended => rw [hq] at hp; cases hp

/-- Where each of some handlers could commit at one stroke, and still can when another has, they
can all commit, one after the other, at an attempt each. -/
theorem all_commit {C : τ → σ → Prop}
    (hC : ∀ t s, C t s → ∃ n s', atomically S t n s = some s' ∧ ∀ t', C t' s → C t' s') {task : ι → τ}
    {is : List ι} (hn : is.Nodup) :
    ∀ {s : State ι σ τ ν ρ μ}, (∀ i ∈ is, (s.phase i).pending = some (task i)) → (∀ i ∈ is, C (task i) s.store) →
      ∃ as s', as.length ≤ 3 * is.length ∧ (∀ j, tries j as = if j ∈ is then 1 else 0) ∧
        Runs.run (step S) s as = some s' ∧ (∀ i ∈ is, ∃ n, s'.phase i = .committed (task i) n) ∧
          ∀ j, j ∉ is → s'.phase j = s.phase j := by
  induction is with
  | nil =>
    intro s _ _
    exact ⟨[], s, by simp, fun _ => rfl, rfl, by simp, fun _ _ => rfl⟩
  | cons i is ih =>
    intro s hp hc
    obtain ⟨hi, hn⟩ := List.nodup_cons.mp hn
    obtain ⟨n, st, hb, hkeep⟩ := hC _ _ (hc i List.mem_cons_self)
    obtain ⟨as, hlen, htries, hrun⟩ := commit_alone (hp i List.mem_cons_self) hb
    have hp' : ∀ j ∈ is, (Function.update s.phase i (.committed (task i) n) j).pending = some (task j) := by
      intro j hj
      have hne : j ≠ i := fun h => hi (h ▸ hj)
      rw [Function.update_of_ne hne]
      exact hp j (List.mem_cons_of_mem _ hj)
    have hc' : ∀ j ∈ is, C (task j) st := fun j hj => hkeep _ (hc j (List.mem_cons_of_mem _ hj))
    obtain ⟨bs, s', hlen', htries', hrun', hcommit, hsame⟩ := ih hn
      (s := ⟨st, Function.update s.phase i (.committed (task i) n), s.log ++ [.commit i (task i) n]⟩) hp' hc'
    refine ⟨as ++ bs, s', ?_, fun j => ?_, ?_, ?_, ?_⟩
    · rw [List.length_append, List.length_cons]
      omega
    · rw [tries_append, htries, htries']
      by_cases hj : i = j
      · subst hj
        simp [hi]
      · simp [hj, Ne.symm hj]
    · rw [Runs.run_append, hrun, Option.bind_some, hrun']
    · intro j hj
      rcases List.mem_cons.mp hj with rfl | hj
      · exact ⟨n, (hsame j hi).trans (Function.update_self ..)⟩
      · exact hcommit j hj
    · intro j hj
      rw [List.mem_cons, not_or] at hj
      exact (hsame j hj.2).trans (Function.update_of_ne hj.1 ..)

end

end

end Optimistic
