import Sayaaratukcom.ConcurrentRefunds

/-!
# Attempts at a refund

An attempt of `runTransaction` is in vain when the user's document is no longer
as it has been read. Each such attempt is paid for by a write of this document
that went through, and the invocations under way that have an attempt left can
all commit exactly if their users have documents.
-/

namespace Sayaaratukcom

open Optimistic (Act Entry)

def writesUser (t : RefundTask) : Entry ℕ RefundTask Timestamp AppUpdate → Bool
  | .commit _ t' _ => t'.userId = t.userId
  | .update m => m.uid = t.userId

section
variable {t : RefundTask} {st st' : Store}

theorem users_of_not_writesUser {e : Entry ℕ RefundTask Timestamp AppUpdate}
    (he : Optimistic.apply refunds st e = some st') (h : writesUser t e = false) :
    st'.users t.userId = st.users t.userId := by
  cases e with
  | commit i t' now =>
    obtain ⟨rfl, user, hu⟩ := atomically_eq_some he
    have hne : t.userId ≠ t'.userId := fun heq => of_decide_eq_false h heq.symm
    rw [Store.refund_of_user st t' now hu]
    exact Function.update_of_ne hne ..
  | update m =>
    obtain rfl := Option.some.inj he
    have hne : t.userId ≠ m.uid := fun heq => of_decide_eq_false h heq.symm
    rw [refunds, AppUpdate.apply_users]
    simp [hne]

theorem atomically_of_user {user : UserDoc} (hu : st.users t.userId = some user) (now : Timestamp) :
    Optimistic.atomically refunds t now st = some (st.refund t now) := by
  rw [Store.refund_of_user st t now hu]
  simp [Optimistic.atomically, refunds, hu, refundBody]

theorem isSome_users_refund (t : RefundTask) (now : Timestamp) (uid : String) :
    ((st.refund t now).users uid).isSome = (st.users uid).isSome := by
  rw [Store.users_refund, Option.isSome_map]

/-- Neither a refund nor the app makes or deletes a document of a user. -/
theorem isSome_users_step {s s' : RefundState} {a : Act ℕ OrderUpdate Timestamp AppUpdate}
    (h : Optimistic.step refunds s a = some s') (uid : String) :
    (s'.store.users uid).isSome = (s.store.users uid).isSome := by
  rcases Optimistic.step_cases h with ⟨i, p, rfl, -⟩ | ⟨i, t, now, r, -, -, hb, -⟩ | ⟨m, -, rfl⟩
  · rfl
  · rw [(atomically_eq_some hb).1, isSome_users_refund]
  · simp [refunds, AppUpdate.apply_users]

end

/-- Every attempt that an invocation makes in vain, whatever becomes of it, is paid for by a
refund or an update that has been written to its user's document. -/
theorem conflicts_le_writes {st : Store} {as : List (Act ℕ OrderUpdate Timestamp AppUpdate)} {s : RefundState}
    (h : Runs.run (Optimistic.step refunds) (.init st) as = some s) {i : ℕ} {u : OrderUpdate}
    (hu : Act.enter i u ∈ as) {t : RefundTask} (ht : readOffer u st = .ok t) :
    (Runs.collect (Optimistic.step refunds) (Optimistic.conflict refunds i) (.init st) as).length ≤
      s.log.countP (writesUser t) := by
  refine Optimistic.conflicts_le (I := fun st' => st'.offers = st.offers) (t := t)
    (fun _ _ _ he hw => users_of_not_writesUser he hw) rfl ?_ ?_ ?_ h hu
  · exact fun t now st₁ st₂ hI hb => (offers_atomically hb).trans hI
  · exact fun m st₁ hI => hI
  · intro st₁ t' hI hs
    exact Except.ok.inj (((start_eq_some hI).mp hs).symm.trans ht)

/-- The first refund has won an attempt from the second, which fails at the next. -/
def demoConflict : List (Act ℕ OrderUpdate Timestamp AppUpdate) := demoOverlap.take 8 ++ [.fail 1]

theorem demo_conflicts : ∃ s, Runs.run (Optimistic.step refunds) (.init demoStore) demoConflict = some s ∧
    (Runs.collect (Optimistic.step refunds) (Optimistic.conflict refunds 1) (.init demoStore)
      demoConflict).length = 1 ∧
    1 ≤ s.log.countP (writesUser ⟨"o", "u", 10⟩) := by
  have h : (Runs.run (Optimistic.step refunds) (.init demoStore) demoConflict).isSome := by decide +kernel
  have hc : (Runs.collect (Optimistic.step refunds) (Optimistic.conflict refunds 1) (.init demoStore)
      demoConflict).length = 1 := by decide +kernel
  obtain ⟨s, hs⟩ := Option.isSome_iff_exists.mp h
  have hu : Act.enter 1 (demoCancellation "b") ∈ demoConflict := List.mem_cons_of_mem _ List.mem_cons_self
  exact ⟨s, hs, hc, hc.symm.trans_le (conflicts_le_writes hs hu rfl)⟩

/-! ## Completion -/

/-- `DEFAULT_MAX_TRANSACTION_ATTEMPTS`; an attempt begins with its read. -/
def maxAttempts : ℕ := 5

theorem user_of_committed {s s' : RefundState} {as : List (Act ℕ OrderUpdate Timestamp AppUpdate)}
    (h : Runs.run (Optimistic.step refunds) s as = some s') {i : ℕ} {t : RefundTask} {now : Timestamp}
    (hc : s'.phase i = .committed t now) : s.phase i = .committed t now ∨ (s.store.users t.userId).isSome := by
  refine (Runs.inv_run_free (I := fun s' : RefundState =>
    (∀ uid, (s'.store.users uid).isSome = (s.store.users uid).isSome) ∧
      ∀ i t now, s'.phase i = .committed t now → s.phase i = .committed t now ∨ (s.store.users t.userId).isSome)
    (fun s₁ a s₂ hi hs => ?_) ⟨fun _ => rfl, fun _ _ _ => Or.inl⟩ h).2 i t now hc
  obtain ⟨husers, hcommitted⟩ := hi
  refine ⟨fun uid => (isSome_users_step hs uid).trans (husers uid), fun j t' now' hj => ?_⟩
  rcases Optimistic.step_cases hs with ⟨k, p, rfl, -, hp, -⟩ | ⟨k, t, now, r, -, -, hb, hph, -⟩ | ⟨m, -, rfl⟩
  · by_cases hjk : j = k
    · subst hjk
      rw [Optimistic.State.goto_self] at hj
      exact absurd hj (hp t' now')
    · rw [Optimistic.State.goto_of_ne _ hjk] at hj
      exact hcommitted j t' now' hj
  · rw [hph] at hj
    by_cases hjk : j = k
    · subst hjk
      rw [Function.update_self] at hj
      obtain ⟨rfl, rfl⟩ := Optimistic.Phase.committed.inj hj
      obtain ⟨-, user, hu⟩ := atomically_eq_some hb
      right
      rw [← husers, hu]
      rfl
    · rw [Function.update_of_ne hjk] at hj
      exact hcommitted j t' now' hj
  · exact hcommitted j t' now' hj

/-- Whatever state concurrent invocations are in, those under way that have an attempt left can
all commit, within three steps and one attempt each, exactly if their users have documents. -/
theorem refunds_commit_iff {st : Store} {as : List (Act ℕ OrderUpdate Timestamp AppUpdate)} {s : RefundState}
    (h : Runs.run (Optimistic.step refunds) (.init st) as = some s) (hl : Optimistic.Limited maxAttempts as)
    (is : List ℕ) (hn : is.Nodup) (task : ℕ → RefundTask) (hp : ∀ i ∈ is, (s.phase i).pending = some (task i))
    (ht : ∀ i ∈ is, Optimistic.tries i as < maxAttempts) :
    (∃ bs s', bs.length ≤ 3 * is.length ∧ Optimistic.Limited maxAttempts (as ++ bs) ∧
        Runs.run (Optimistic.step refunds) (.init st) (as ++ bs) = some s' ∧
          ∀ i ∈ is, ∃ now, s'.phase i = .committed (task i) now) ↔
      ∀ i ∈ is, (s.store.users (task i).userId).isSome := by
  constructor
  · rintro ⟨bs, s', -, -, hrun, hc⟩ i hi
    obtain ⟨now, hnow⟩ := hc i hi
    rw [Runs.run_append, h, Option.bind_some] at hrun
    rcases user_of_committed hrun hnow with hcommitted | hu
    · have hpi := hp i hi
      rw [hcommitted] at hpi
      cases hpi
    · exact hu
  · intro hu
    have hC : ∀ (t : RefundTask) (st : Store), (st.users t.userId).isSome →
        ∃ now st', Optimistic.atomically refunds t now st = some st' ∧
          ∀ t' : RefundTask, (st.users t'.userId).isSome → (st'.users t'.userId).isSome := by
      intro t st ht
      obtain ⟨user, hu⟩ := Option.isSome_iff_exists.mp ht
      refine ⟨0, _, atomically_of_user hu 0, fun t' ht' => ?_⟩
      rw [isSome_users_refund]
      exact ht'
    obtain ⟨bs, s', hlen, htries, hrun, hc, -⟩ := Optimistic.all_commit hC hn hp hu
    refine ⟨bs, s', hlen, fun j => ?_, ?_, hc⟩
    · rw [Optimistic.tries_append, htries]
      split
      · rename_i hj
        exact ht j hj
      · exact hl j
    · rw [Runs.run_append, h, Option.bind_some, hrun]

/-- Both invocations have read before either commits. -/
theorem demo_commit : ∃ bs s', bs.length ≤ 6 ∧ Optimistic.Limited maxAttempts (demoOverlap.take 4 ++ bs) ∧
    Runs.run (Optimistic.step refunds) (.init demoStore) (demoOverlap.take 4 ++ bs) = some s' ∧
      ∀ i ∈ [0, 1], ∃ now, s'.phase i = .committed ⟨"o", "u", if i = 0 then 100 else 10⟩ now := by
  have h : (Runs.run (Optimistic.step refunds) (.init demoStore) (demoOverlap.take 4)).map
      (fun s => ((s.phase 0).pending, (s.phase 1).pending, (s.store.users "u").isSome)) =
      some (some ⟨"o", "u", 100⟩, some ⟨"o", "u", 10⟩, true) := by decide +kernel
  obtain ⟨s, hs, hp⟩ := Option.map_eq_some_iff.mp h
  obtain ⟨h0, h1⟩ := Prod.mk.inj hp
  obtain ⟨h1, hu⟩ := Prod.mk.inj h1
  have hlt : ∀ i, Optimistic.tries i (demoOverlap.take 4) < maxAttempts := fun i =>
    lt_of_le_of_lt List.countP_le_length (by decide)
  refine (refunds_commit_iff hs (fun i => (hlt i).le) [0, 1] (by decide)
    (fun i => ⟨"o", "u", if i = 0 then 100 else 10⟩) ?_ fun i _ => hlt i).mpr fun _ _ => hu
  intro i hi
  rcases List.mem_pair.mp hi with rfl | rfl
  · exact h0
  · exact h1

end Sayaaratukcom
