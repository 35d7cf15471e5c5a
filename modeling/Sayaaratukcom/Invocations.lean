import Sayaaratukcom.Settlement

/-!
# Invocations inside the system

A delivery of `World` runs `handleOrderCancellation` at one stroke. Here each
event's invocation reads the offer, reads the user's document, commits if this
document is still the same, tries again or fails, all between the writes of the
calls and the steps of other invocations. Seen from outside an invocation still
happens at one stroke, at the moment at which it ends: no call changes what it
has read of the offer, and the transaction takes care of the user.
-/

namespace Sayaaratukcom

inductive InvocationPhase where
  | waiting
  | ready (t : RefundTask) -- the offer has been read
  | reading (t : RefundTask) (now : Timestamp) (user : UserDoc)
  | ended
  | failed -- what `runTransaction` throws is caught, and nothing is written
  deriving DecidableEq

def InvocationPhase.task : InvocationPhase → Option RefundTask
  | .ready t | .reading t _ _ => some t
  | .waiting | .ended | .failed => none

/-- The world with the invocation of each event of its log. -/
structure Backend where
  world : World
  phase : ℕ → InvocationPhase

inductive BackendAct where
  | app (a : Act)
  | enter (i : ℕ) (now : Timestamp)
  | read (i : ℕ) (now : Timestamp)
  | commit (i : ℕ)
  | abort (i : ℕ)
  | fail (i : ℕ)

namespace Backend

def init (st : Store) : Backend := ⟨.init st, fun _ => .waiting⟩

def goto (s : Backend) (i : ℕ) (p : InvocationPhase) : Backend := { s with phase := Function.update s.phase i p }

def finish (s : Backend) (i : ℕ) (now : Timestamp) (r : Outcome × Store) : Backend :=
  ⟨s.world.handled i now r, Function.update s.phase i .ended⟩

def step (s : Backend) : BackendAct → Option Backend
  | .app (.deliver _ _) => none
  | .app a => (s.world.step a).map fun w => { s with world := w }
  | .enter i now =>
    match s.phase i, s.world.events[i]? with
    | .waiting, some u =>
      match readOffer u s.world.store with
      | .error e => some (s.finish i now (e, s.world.store))
      | .ok t => some (s.goto i (.ready t))
    | _, _ => none
  | .read i now =>
    match s.phase i with
    | .ready t =>
      match s.world.store.users t.userId with
      | none => some (s.finish i now (.failed, s.world.store))
      | some user => some (s.goto i (.reading t now user))
    | _ => none
  | .commit i =>
    match s.phase i with
    | .reading t now user =>
      if s.world.store.users t.userId = some user then
        some (s.finish i now (.refunded t, s.world.store.commitRefund t user now))
      else none
    | _ => none
  | .abort i =>
    match s.phase i with
    | .reading t _ _ => some (s.goto i (.ready t))
    | _ => none
  | .fail i =>
    match s.phase i with
    | .ready _ | .reading _ _ _ => some (s.goto i .failed)
    | _ => none

/-- What the world sees of a step: an invocation is delivered when it ends. -/
def visible (s : Backend) : BackendAct → Option Act
  | .app a => some a
  | .enter i now =>
    match s.world.events[i]?.map fun u => readOffer u s.world.store with
    | some (.error _) => some (.deliver i now)
    | _ => none
  | .read i now =>
    match (s.phase i).task.bind fun t => s.world.store.users t.userId with
    | none => some (.deliver i now)
    | some _ => none
  | .commit i =>
    match s.phase i with
    | .reading _ now _ => some (.deliver i now)
    | _ => none
  | .abort _ | .fail _ => none

end Backend

/-! ## What a step does -/

/-- An invocation that has read an offer has read what its event is due; those delivered have ended. -/
structure Traced (st₀ : Store) (s : Backend) : Prop where
  anchored : Anchored st₀ s.world
  ended : ∀ i, s.phase i = .ended ↔ i ∈ s.world.delivered.map Delivery.event
  task : ∀ i t, (s.phase i).task = some t → ∃ u, s.world.events[i]? = some u ∧ readOffer u st₀ = .ok t

/-- Everything a step can do. -/
inductive BackendMoves (s : Backend) : BackendAct → Backend → Prop
  | app {a : Act} {w : World} (ha : ∀ i now, a ≠ .deliver i now) (hw : s.world.step a = some w) :
      BackendMoves s (.app a) { s with world := w }
  | move {a : BackendAct} {i : ℕ} {p : InvocationPhase} (hv : s.visible a = none) (hi : s.phase i ≠ .ended)
      (hp : p ≠ .ended)
      (ht : ∀ t, p.task = some t → ∃ u, s.world.events[i]? = some u ∧ readOffer u s.world.store = .ok t) :
      BackendMoves s a (s.goto i p)
  | finish {a : BackendAct} {i : ℕ} {now : Timestamp} {u : OrderUpdate} (hv : s.visible a = some (.deliver i now))
      (hi : s.phase i ≠ .ended) (hu : s.world.events[i]? = some u) :
      BackendMoves s a (s.finish i now (handleOrderCancellation now u s.world.store))

section
variable {st₀ : Store} {s s' : Backend} {a : BackendAct}

theorem Traced.read (h : Traced st₀ s) {i : ℕ} {t : RefundTask} (ht : (s.phase i).task = some t) :
    ∃ u, s.world.events[i]? = some u ∧ readOffer u s.world.store = .ok t := by
  obtain ⟨u, hu, hr⟩ := h.task i t ht
  exact ⟨u, hu, (readOffer_of_terms h.anchored.store).mpr hr⟩

theorem step_app {a : Act} (ha : ∀ i now, a ≠ .deliver i now) :
    s.step (.app a) = (s.world.step a).map fun w => { s with world := w } := by
  cases a with
  | deliver i now => exact absurd rfl (ha i now)
  | _ => rfl

theorem backend_moves (h : Traced st₀ s) (hs : s.step a = some s') : BackendMoves s a s' := by
  cases a with
  | app a =>
    by_cases hd : ∃ i now, a = .deliver i now
    · obtain ⟨i, now, rfl⟩ := hd
      cases hs
    · have ha : ∀ i now, a ≠ .deliver i now := fun i now h => hd ⟨i, now, h⟩
      rw [step_app ha] at hs
      obtain ⟨w, hw, rfl⟩ := Option.map_eq_some_iff.mp hs
      exact .app ha hw
  | enter i now =>
    simp only [Backend.step] at hs
    split at hs
    · rename_i u hp hu
      cases hr : readOffer u s.world.store with
      | error e =>
        rw [hr] at hs
        obtain rfl := Option.some.inj hs
        rw [← handleOrderCancellation_of_error hr]
        exact .finish (by simp [Backend.visible, hu, hr]) (by simp [hp]) hu
      | ok t =>
        rw [hr] at hs
        obtain rfl := Option.some.inj hs
        refine .move (by simp [Backend.visible, hu, hr]) (by simp [hp]) (by simp) fun t' ht' => ?_
        obtain rfl := Option.some.inj ht'
        exact ⟨u, hu, hr⟩
    · cases hs
  | read i now =>
    simp only [Backend.step] at hs
    split at hs
    · rename_i t hp
      have ht : (s.phase i).task = some t := by rw [hp]; rfl
      obtain ⟨u, hu, hr⟩ := h.read ht
      cases huser : s.world.store.users t.userId with
      | none =>
        rw [huser] at hs
        obtain rfl := Option.some.inj hs
        have hh : handleOrderCancellation now u s.world.store = (.failed, s.world.store) := by
          rw [handleOrderCancellation_of_ok hr, Store.refund_of_none _ t now huser, huser]
          rfl
        rw [← hh]
        exact .finish (by simp [Backend.visible, ht, huser]) (by simp [hp]) hu
      | some user =>
        rw [huser] at hs
        obtain rfl := Option.some.inj hs
        refine .move (by simp [Backend.visible, ht, huser]) (by simp [hp]) (by simp) fun t' ht' => ?_
        obtain rfl := Option.some.inj ht'
        exact ⟨u, hu, hr⟩
    · cases hs
  | commit i =>
    simp only [Backend.step] at hs
    split at hs
    · rename_i t now user hp
      split at hs
      · rename_i huser
        obtain rfl := Option.some.inj hs
        obtain ⟨u, hu, hr⟩ := h.read (i := i) (t := t) (by rw [hp]; rfl)
        have hh : handleOrderCancellation now u s.world.store =
            (.refunded t, s.world.store.commitRefund t user now) := by
          rw [handleOrderCancellation_of_ok hr, Store.refund_of_user _ t now huser, huser]
          rfl
        rw [← hh]
        exact .finish (by simp [Backend.visible, hp]) (by simp [hp]) hu
      · cases hs
    · cases hs
  | abort i =>
    simp only [Backend.step] at hs
    split at hs
    · rename_i t now user hp
      obtain rfl := Option.some.inj hs
      have ht : (s.phase i).task = some t := by rw [hp]; rfl
      refine .move rfl (by simp [hp]) (by simp) fun t' ht' => ?_
      obtain rfl := Option.some.inj ht'
      exact h.read ht
    · cases hs
  | fail i =>
    simp only [Backend.step] at hs
    split at hs
    · rename_i hp
      obtain rfl := Option.some.inj hs
      exact .move rfl (by simp [hp]) (by simp) fun _ ht => by cases ht
    · rename_i hp
      obtain rfl := Option.some.inj hs
      exact .move rfl (by simp [hp]) (by simp) fun _ ht => by cases ht
    · cases hs

theorem traced_init (st : Store) : Traced st (.init st) where
  anchored := anchored_init st
  ended := by simp [Backend.init, World.init]
  task _ _ h := by cases h

/-- A call neither delivers nor takes back an event. -/
theorem app_step {w w' : World} {a : Act} (ha : ∀ i now, a ≠ .deliver i now) (hs : w.step a = some w') :
    w'.delivered = w.delivered ∧ w.events <+: w'.events := by
  cases moves_of_step hs with
  | accept => exact ⟨rfl, List.prefix_rfl⟩
  | cancel => exact ⟨rfl, List.prefix_rfl⟩
  | order => exact ⟨rfl, List.prefix_append ..⟩
  | offer => exact ⟨rfl, List.prefix_rfl⟩
  | deliver => exact absurd rfl (ha _ _)

theorem deliver_step (h : Traced st₀ s) {i : ℕ} {now : Timestamp} {u : OrderUpdate} (hi : s.phase i ≠ .ended)
    (hu : s.world.events[i]? = some u) :
    s.world.step (.deliver i now) = some (s.finish i now (handleOrderCancellation now u s.world.store)).world := by
  have hn : i ∉ s.world.delivered.map Delivery.event := fun hm => hi ((h.ended i).mpr hm)
  simp only [World.step, if_neg hn, hu]
  rfl

theorem traced_step (h : Traced st₀ s) (hs : s.step a = some s') : Traced st₀ s' := by
  cases backend_moves h hs with
  | app ha hw =>
    obtain ⟨hd, es, he⟩ := app_step ha hw
    refine ⟨anchored_step h.anchored hw, fun i => ?_, fun i t ht => ?_⟩
    · rw [hd]
      exact h.ended i
    · obtain ⟨u, hu, hr⟩ := h.task i t ht
      refine ⟨u, ?_, hr⟩
      rw [← he, List.getElem?_append_left (List.getElem?_eq_some_iff.mp hu).1, hu]
  | @move _ i p hv hi hp ht =>
    refine ⟨h.anchored, fun j => ?_, fun j t hj => ?_⟩
    · refine Iff.trans ?_ (h.ended j)
      by_cases hji : j = i
      · subst hji
        simp [Backend.goto, hi, hp]
      · simp [Backend.goto, hji]
    · by_cases hji : j = i
      · subst hji
        obtain ⟨u, hu, hr⟩ := ht t (by simpa [Backend.goto] using hj)
        exact ⟨u, hu, (readOffer_of_terms h.anchored.store).mp hr⟩
      · exact h.task j t (by simpa [Backend.goto, hji] using hj)
  | @finish _ i now u hv hi hu =>
    refine ⟨anchored_step h.anchored (deliver_step h hi hu), fun j => ?_, fun j t hj => ?_⟩
    · have hd := h.ended j
      by_cases hji : j = i
      · subst hji
        simp [Backend.finish, World.handled]
      · simp [Backend.finish, World.handled, hji, hd]
    · by_cases hji : j = i
      · subst hji
        simp [Backend.finish, InvocationPhase.task] at hj
      · exact h.task j t (by simpa [Backend.finish, hji] using hj)

/-- A step is the one that the world sees, or the world sees nothing. -/
theorem visible_step (h : Traced st₀ s) (hs : s.step a = some s') :
    Runs.run World.step s.world (s.visible a).toList = some s'.world := by
  cases backend_moves h hs with
  | app ha hw =>
    rw [Backend.visible, Option.toList_some, Runs.run_cons, hw]
    rfl
  | move hv hi hp ht =>
    rw [hv]
    rfl
  | finish hv hi hu =>
    rw [hv, Option.toList_some, Runs.run_cons, deliver_step h hi hu]
    rfl

end

/-! ## The two systems -/

section
variable {st : Store} {s : Backend}

theorem backend_refines {as : List BackendAct} (h : Runs.run Backend.step (.init st) as = some s) :
    Runs.run World.step (.init st) (Runs.collect Backend.step Backend.visible (.init st) as) = some s.world :=
  Runs.run_refines (g := Backend.world) (fun _ _ _ hi hs => traced_step hi hs)
    (fun _ _ _ hi hs => visible_step hi hs) (traced_init st) h

theorem finish_goto (s : Backend) (i : ℕ) (p : InvocationPhase) (now : Timestamp) (r : Outcome × Store) :
    (s.goto i p).finish i now r = s.finish i now r := by
  simp [Backend.goto, Backend.finish]

theorem goto_goto (s : Backend) (i : ℕ) (p q : InvocationPhase) : (s.goto i p).goto i q = s.goto i q := by
  simp [Backend.goto]

theorem goto_self (s : Backend) (i : ℕ) (p : InvocationPhase) : (s.goto i p).phase i = p := Function.update_self ..

/-- An invocation that runs alone is a delivery. -/
theorem deliver_alone {i : ℕ} {u : OrderUpdate} (hi : s.phase i = .waiting) (hu : s.world.events[i]? = some u)
    (now : Timestamp) :
    ∃ as, Runs.run Backend.step s as = some (s.finish i now (handleOrderCancellation now u s.world.store)) := by
  cases hr : readOffer u s.world.store with
  | error e =>
    refine ⟨[.enter i now], ?_⟩
    rw [handleOrderCancellation_of_error hr]
    simp [Runs.run, Backend.step, hi, hu, hr]
  | ok t =>
    have henter : s.step (.enter i now) = some (s.goto i (.ready t)) := by simp [Backend.step, hi, hu, hr]
    rw [handleOrderCancellation_of_ok hr]
    cases huser : s.world.store.users t.userId with
    | none =>
      have hread : (s.goto i (.ready t)).step (.read i now) = some (s.finish i now (.failed, s.world.store)) := by
        rw [← finish_goto s i (.ready t)]
        simp only [Backend.step, goto_self]
        simp only [Backend.goto, huser]
      refine ⟨[.enter i now, .read i now], ?_⟩
      rw [Runs.run_cons, henter, Option.bind_some, Runs.run_cons, hread, Store.refund_of_none _ t now huser]
      rfl
    | some user =>
      have hread : (s.goto i (.ready t)).step (.read i now) = some (s.goto i (.reading t now user)) := by
        rw [← goto_goto s i (.ready t) (.reading t now user)]
        simp only [Backend.step, goto_self]
        simp only [Backend.goto, huser]
      have hcommit : (s.goto i (.reading t now user)).step (.commit i) =
          some (s.finish i now (.refunded t, s.world.store.commitRefund t user now)) := by
        rw [← finish_goto s i (.reading t now user)]
        simp only [Backend.step, goto_self]
        simp only [Backend.goto, huser, if_true]
      refine ⟨[.enter i now, .read i now, .commit i], ?_⟩
      rw [Runs.run_cons, henter, Option.bind_some, Runs.run_cons, hread, Option.bind_some, Runs.run_cons, hcommit,
        Store.refund_of_user _ t now huser]
      rfl

theorem world_in_backend {bs : List Act} {w : World} (h : Runs.run World.step (.init st) bs = some w) :
    ∃ as s, Runs.run Backend.step (.init st) as = some s ∧ s.world = w ∧
      ∀ i, i ∉ w.delivered.map Delivery.event → s.phase i = .waiting := by
  induction bs using List.reverseRecOn generalizing w with
  | nil =>
    obtain rfl := Option.some.inj h
    exact ⟨[], .init st, rfl, rfl, fun _ _ => rfl⟩
  | append_singleton bs b ih =>
    obtain ⟨w₁, hw, hb⟩ := (Runs.run_snoc_eq_some _).mp h
    obtain ⟨as, s, hs, rfl, hwaiting⟩ := ih hw
    by_cases hd : ∃ i now, b = .deliver i now
    · obtain ⟨i, now, rfl⟩ := hd
      cases moves_of_step hb with
      | @deliver _ _ u hn hu =>
        obtain ⟨cs, hcs⟩ := deliver_alone (hwaiting i hn) hu now
        refine ⟨as ++ cs, _, by rw [Runs.run_append, hs, Option.bind_some, hcs], rfl, fun j hj => ?_⟩
        simp only [World.handled, List.map_append, List.mem_append, not_or, List.map_cons, List.map_nil,
          List.mem_singleton] at hj
        exact (Function.update_of_ne hj.2 ..).trans (hwaiting j hj.1)
    · have ha : ∀ i now, b ≠ .deliver i now := fun i now h => hd ⟨i, now, h⟩
      have hstep : s.step (.app b) = some { s with world := w } := by rw [step_app ha, hb, Option.map_some]
      refine ⟨as ++ [.app b], _, (Runs.run_snoc_eq_some _).mpr ⟨s, hs, hstep⟩, rfl, fun j hj => ?_⟩
      rw [(app_step ha hb).1] at hj
      exact hwaiting j hj

/-- The worlds that invocations step by step can lead to are those of deliveries at one stroke. -/
theorem backend_reaches_iff {st : Store} {w : World} :
    (∃ as s, Runs.run Backend.step (.init st) as = some s ∧ s.world = w) ↔
      ∃ bs, Runs.run World.step (.init st) bs = some w := by
  constructor
  · rintro ⟨as, s, hs, rfl⟩
    exact ⟨_, backend_refines hs⟩
  · rintro ⟨bs, hb⟩
    obtain ⟨as, s, hs, hw, -⟩ := world_in_backend hb
    exact ⟨as, s, hs, hw⟩

/-! ## Wallets -/

def Backend.settled (s : Backend) : List OrderUpdate :=
  Deliveries.received s.world.events ((List.range s.world.events.length).filter fun i => s.phase i = .ended)

theorem tasks_of_phases {st₀ : Store} (h : Traced st₀ s) : s.world.tasks.Perm (s.settled.filterMap st₀.due) := by
  have hperm : (s.world.delivered.map Delivery.event).Perm
      ((List.range s.world.events.length).filter fun i => s.phase i = .ended) := by
    refine (List.perm_ext_iff_of_nodup h.anchored.once (List.nodup_range.filter _)).mpr fun i => ?_
    rw [List.mem_filter, List.mem_range, decide_eq_true_iff, h.ended]
    exact ⟨fun hi => ⟨delivered_lt h.anchored i hi, hi⟩, fun hi => hi.2⟩
  rw [tasks_eq h.anchored]
  exact (hperm.filterMap _).filterMap _

/-- However invocations overlap, read again and fail: those that have ended have paid what their
events were due, each once, and the others nothing. -/
theorem wallet_of_invocations {as : List BackendAct} (h : Runs.run Backend.step (.init st) as = some s)
    {uid : String} {user : UserDoc} (hu : st.users uid = some user) :
    let dues := (s.settled.filterMap st.due).filter fun t => t.userId = uid
    ∃ user', s.world.store.users uid = some user' ∧
      currentBalance user' = currentBalance user + (dues.map RefundTask.offerPrice).sum ∧
      ((s.world.store.transactions uid).map TransactionModel.entry).Perm
        ((st.transactions uid).map TransactionModel.entry ++ dues.map RefundTask.entry) := by
  have ht : Traced st s := Runs.inv_run_free (fun _ _ _ hi hs => traced_step hi hs) (traced_init st) h
  obtain ⟨user', hu', hb, hr⟩ := wallet_of_tasks (backend_refines h) hu
  have hperm := (tasks_of_phases ht).filter fun t => t.userId = uid
  refine ⟨user', hu', ?_, ?_⟩
  · rw [hb, (hperm.map _).sum_eq]
  · rw [hr]
    exact (hperm.map _).append_left _

end

/-- Both refunds of user `u` are under way when the second is committed, and the first reads again. -/
def demoInvocations : List BackendAct :=
  (demoTwoRefunds.take 14).map .app ++
    [.enter 2 1, .enter 5 2, .read 2 3, .read 5 4, .commit 5, .abort 2, .read 2 6, .commit 2]

theorem demo_invocations : ∃ s, Runs.run Backend.step (.init demoStore) demoInvocations = some s ∧
    let dues := (s.settled.filterMap demoStore.due).filter fun t => t.userId = "u"
    dues.map RefundTask.offerPrice = [100, 10] ∧
    ∃ user', s.world.store.users "u" = some user' ∧
      currentBalance user' = currentBalance demoUser + (dues.map RefundTask.offerPrice).sum ∧
      ((s.world.store.transactions "u").map TransactionModel.entry).Perm
        ((demoStore.transactions "u").map TransactionModel.entry ++ dues.map RefundTask.entry) := by
  have h : (Runs.run Backend.step (.init demoStore) demoInvocations).map (fun s =>
      ((s.settled.filterMap demoStore.due).filter fun t => t.userId = "u").map RefundTask.offerPrice) =
      some [100, 10] := by decide +kernel
  obtain ⟨s, hs, hdues⟩ := Option.map_eq_some_iff.mp h
  exact ⟨s, hs, hdues, wallet_of_invocations hs rfl⟩

end Sayaaratukcom
