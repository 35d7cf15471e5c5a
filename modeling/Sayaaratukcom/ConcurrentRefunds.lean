import Sayaaratukcom.Wallet

/-!
# Concurrent refunds

Any number of invocations of `handleOrderCancellation` run at once, each with
its offer read, its transaction attempts, aborts and retries, while the app
writes single fields of the user documents. The transactions are optimistic, so
every run is one of whole refunds and field updates one after the other; on
these the wallets are sums.
-/

namespace Sayaaratukcom

open Optimistic (Act Entry)

theorem currentBalance_onUser (m : AppUpdate) (user : UserDoc) :
    currentBalance (m.onUser user) = currentBalance user := by
  cases m <;> rfl

/-- The handler as a system of optimistic transactions on the user document. -/
def refunds : Optimistic.System Store OrderUpdate RefundTask Timestamp (Option UserDoc) AppUpdate where
  start u st := (readOffer u st).toOption
  view t st := st.users t.userId
  body := refundBody
  other := AppUpdate.apply

abbrev RefundState := Optimistic.State ℕ Store RefundTask Timestamp (Option UserDoc) AppUpdate

theorem atomically_eq_some {t : RefundTask} {now : Timestamp} {st st' : Store}
    (h : Optimistic.atomically refunds t now st = some st') :
    st' = st.refund t now ∧ ∃ user, st.users t.userId = some user := by
  obtain ⟨f, hf, rfl⟩ := Option.map_eq_some_iff.mp h
  cases hu : st.users t.userId with
  | none =>
    have : refundBody t now (st.users t.userId) = some f := hf
    rw [hu] at this
    cases this
  | some user =>
    have : refundBody t now (st.users t.userId) = some f := hf
    rw [hu] at this
    obtain rfl := Option.some.inj this
    exact ⟨(st.refund_of_user t now hu).symm, user, rfl⟩

/-- An invocation that nothing interrupts is its offer read followed by its
transaction at one stroke. -/
theorem handleOrderCancellation_atomically (now : Timestamp) (u : OrderUpdate) (st : Store) :
    (handleOrderCancellation now u st).2 =
      ((refunds.start u st).bind fun t => Optimistic.atomically refunds t now st).getD st := by
  cases h : readOffer u st with
  | error e =>
    rw [handleOrderCancellation_of_error h]
    simp [refunds, h, Except.toOption]
  | ok t =>
    rw [handleOrderCancellation_of_ok h, Store.refund]
    simp only [refunds, h, Except.toOption, Optimistic.atomically, Option.bind_some]
    cases refundBody t now (st.users t.userId) <;> rfl

/-! ## What a log leaves of one user -/

def committedFor (uid : String) (log : List (Entry ℕ RefundTask Timestamp AppUpdate)) :
    List (RefundTask × Timestamp) :=
  log.filterMap fun e =>
    match e with
    | .commit _ t now => if t.userId = uid then some (t, now) else none
    | .update _ => none

def lastToken (uid : String) (ms : List AppUpdate) (old : Option String) : Option String :=
  (ms.filterMap fun m =>
    match m with
    | .fcmToken uid' token => if uid' = uid then some token else none
    | .avatarUrl _ _ => none).getLast?.getD old

def lastAvatar (uid : String) (ms : List AppUpdate) (old : Option String) : Option String :=
  (ms.filterMap fun m =>
    match m with
    | .avatarUrl uid' url => if uid' = uid then some (some url) else none
    | .fcmToken _ _ => none).getLast?.getD old

theorem wallet_appUpdate (m : AppUpdate) (st : Store) (uid : String) :
    (m.apply st).wallet uid = st.wallet uid := by
  rw [Store.wallet, Store.wallet, AppUpdate.apply_users, Option.map_map, AppUpdate.apply_transactions]
  congr 1
  funext user
  by_cases h : uid = m.uid <;> simp [h, currentBalance_onUser]

theorem wallet_replay (uid : String) {st₀ : Store} {log : List (Entry ℕ RefundTask Timestamp AppUpdate)} :
    ∀ {st : Store}, Runs.run (Optimistic.apply refunds) st₀ log = some st →
      st.wallet uid = (st₀.wallet uid).map fun w => w.credits (committedFor uid log) := by
  induction log using List.reverseRecOn with
  | nil =>
    intro st h
    obtain rfl := Option.some.inj h
    simp [committedFor]
  | append_singleton log e ih =>
    intro st' h
    obtain ⟨st, hst, h⟩ := (Runs.run_snoc_eq_some _).mp h
    cases e with
    | commit i t now =>
      obtain ⟨rfl, -⟩ := atomically_eq_some h
      rw [Store.wallet_refund, ih hst]
      by_cases hu : uid = t.userId
      · simp [committedFor, Wallet.credits, hu, Function.comp_def]
      · simp [committedFor, hu, Ne.symm hu]
    | update m =>
      obtain rfl := Option.some.inj h
      rw [refunds, wallet_appUpdate, ih hst]
      simp [committedFor]

theorem lastToken_snoc {uid : String} {ms : List AppUpdate} {m : AppUpdate} {user : UserDoc}
    {old : Option String} (h : user.fcmToken = lastToken uid ms old) :
    (if uid = m.uid then m.onUser user else user).fcmToken = lastToken uid (ms ++ [m]) old := by
  cases m with
  | fcmToken uid' token =>
    by_cases hid : uid = uid' <;> simp [AppUpdate.uid, AppUpdate.onUser, lastToken, h, hid, eq_comm]
  | avatarUrl uid' url =>
    by_cases hid : uid = uid' <;> simp [AppUpdate.uid, AppUpdate.onUser, lastToken, h, hid]

theorem lastAvatar_snoc {uid : String} {ms : List AppUpdate} {m : AppUpdate} {user : UserDoc}
    {old : Option String} (h : user.avatarUrl = lastAvatar uid ms old) :
    (if uid = m.uid then m.onUser user else user).avatarUrl = lastAvatar uid (ms ++ [m]) old := by
  cases m with
  | fcmToken uid' token =>
    by_cases hid : uid = uid' <;> simp [AppUpdate.uid, AppUpdate.onUser, lastAvatar, h, hid]
  | avatarUrl uid' url =>
    by_cases hid : uid = uid' <;> simp [AppUpdate.uid, AppUpdate.onUser, lastAvatar, h, hid, eq_comm]

theorem fields_replay {uid : String} {user₀ : UserDoc} {st₀ : Store} (h₀ : st₀.users uid = some user₀)
    {log : List (Entry ℕ RefundTask Timestamp AppUpdate)} :
    ∀ {st : Store}, Runs.run (Optimistic.apply refunds) st₀ log = some st →
      ∃ user, st.users uid = some user ∧
        user.fcmToken = lastToken uid (log.filterMap Entry.update?) user₀.fcmToken ∧
        user.avatarUrl = lastAvatar uid (log.filterMap Entry.update?) user₀.avatarUrl := by
  induction log using List.reverseRecOn with
  | nil =>
    intro st h
    obtain rfl := Option.some.inj h
    exact ⟨user₀, h₀, rfl, rfl⟩
  | append_singleton log e ih =>
    intro st' h
    obtain ⟨st, hst, h⟩ := (Runs.run_snoc_eq_some _).mp h
    obtain ⟨user, hu, ht, ha⟩ := ih hst
    cases e with
    | commit i t now =>
      obtain ⟨rfl, user', hu'⟩ := atomically_eq_some h
      rw [Store.refund_of_user st t now hu']
      simp only [List.filterMap_append, List.filterMap_cons, Entry.update?, List.filterMap_nil,
        List.append_nil]
      by_cases hid : uid = t.userId
      · subst hid
        obtain rfl := Option.some.inj (hu.symm.trans hu')
        exact ⟨user.credit t.offerPrice, Function.update_self .., ht, ha⟩
      · exact ⟨user, (Function.update_of_ne hid ..).trans hu, ht, ha⟩
    | update m =>
      obtain rfl := Option.some.inj h
      simp only [List.filterMap_append, List.filterMap_cons, Entry.update?, List.filterMap_nil]
      refine ⟨if uid = m.uid then m.onUser user else user, ?_, lastToken_snoc ht, lastAvatar_snoc ha⟩
      rw [refunds, AppUpdate.apply_users, hu, Option.map_some]

/-! ## Nothing is lost -/

def SameWallets (st st' : Store) : Prop :=
  st'.transactions = st.transactions ∧
    ∀ uid, (st'.users uid).map currentBalance = (st.users uid).map currentBalance

/-- What a run of invocations and field updates from `st` leaves of a user whose
document was `user₀`. -/
structure NothingLost (st : Store) (uid : String) (user₀ : UserDoc)
    (as : List (Act ℕ OrderUpdate Timestamp AppUpdate)) (s : RefundState) : Prop where
  /-- The balance has grown by the prices of the committed refunds, and the
  fields of the app hold what it wrote last. -/
  user : ∃ user, s.store.users uid = some user ∧
    currentBalance user = currentBalance user₀ + ((committedFor uid s.log).map (·.1.offerPrice)).sum ∧
    user.fcmToken = lastToken uid (as.filterMap Act.update?) user₀.fcmToken ∧
    user.avatarUrl = lastAvatar uid (as.filterMap Act.update?) user₀.avatarUrl
  records : s.store.transactions uid =
    st.transactions uid ++ (committedFor uid s.log).map fun p => refundRecord p.1 p.2
  log : Optimistic.LogInv s
  /-- A committed refund is due to its event, and its record shows the price. -/
  price : ∀ i t now, s.phase i = .committed t now → (refundRecord t now).amount.val = t.offerPrice ∧
    ∃ u : OrderUpdate, Act.enter i u ∈ as ∧ u.cancels ∧ u.after.paymentOption = .electronic ∧
      t.orderId = u.orderId ∧ t.userId = u.after.user ∧ ∃ offer, st.offers.get u.after.offerId = some offer ∧
        t.offerPrice = offer.price
  /-- Only a commit changes a balance or a record. -/
  uncommitted : Runs.AllSteps (Optimistic.step refunds)
    (fun s a s' => (∀ i, a ≠ .commit i) → SameWallets s.store s'.store) (.init st) as

theorem sameWallets_of_not_commit {s s' : RefundState} {a : Act ℕ OrderUpdate Timestamp AppUpdate}
    (h : Optimistic.step refunds s a = some s') (ha : ∀ i, a ≠ .commit i) : SameWallets s.store s'.store := by
  rcases Optimistic.step_cases h with ⟨i, p, rfl, -⟩ | ⟨i, t, n, r, rfl, -⟩ | ⟨m, -, rfl⟩
  · exact ⟨rfl, fun _ => rfl⟩
  · exact absurd rfl (ha i)
  · refine ⟨rfl, fun uid => ?_⟩
    have hu : (refunds.other m s.store).users uid = (m.apply s.store).users uid := rfl
    rw [hu, AppUpdate.apply_users, Option.map_map]
    congr 1
    funext user
    by_cases hid : uid = m.uid <;> simp [hid, currentBalance_onUser]

theorem offers_atomically {t : RefundTask} {now : Timestamp} {st st' : Store}
    (h : Optimistic.atomically refunds t now st = some st') : st'.offers = st.offers := by
  rw [(atomically_eq_some h).1, Store.refund_offers]

theorem start_eq_some {st st' : Store} (h : st'.offers = st.offers) {u : OrderUpdate} {t : RefundTask} :
    refunds.start u st' = some t ↔ readOffer u st = .ok t := by
  change (readOffer u st').toOption = some t ↔ readOffer u st = .ok t
  rw [readOffer_congr h]
  cases readOffer u st <;> simp [Except.toOption]

/-- Whatever the interleaving of the invocations with each other and with the
app's field updates, no refund is lost or doubled and no field update is
lost. -/
theorem refunds_lose_nothing {st : Store} {uid : String} {user₀ : UserDoc} (h₀ : st.users uid = some user₀)
    {as : List (Act ℕ OrderUpdate Timestamp AppUpdate)} {s : RefundState}
    (h : Runs.run (Optimistic.step refunds) (.init st) as = some s) : NothingLost st uid user₀ as s := by
  have hlog := Optimistic.serializable h
  have hw := wallet_replay uid hlog
  obtain ⟨user, hu, ht, ha⟩ := fields_replay h₀ hlog
  rw [Optimistic.updates_run h] at ht ha
  simp only [Store.wallet, h₀, hu, Option.map_some, Option.some.injEq] at hw
  refine ⟨⟨user, hu, ?_, ht, ha⟩, ?_, Optimistic.logInv_run h, fun i t now hp => ?_, ?_⟩
  · exact (congrArg Wallet.balance hw).trans (Wallet.credits_balance ..)
  · exact (congrArg Wallet.records hw).trans (Wallet.credits_records ..)
  · have htask : ∃ u, Act.enter i u ∈ as ∧ readOffer u st = .ok t := by
      refine Optimistic.task_run (I := fun st' => st'.offers = st.offers)
        (P := fun u t => readOffer u st = .ok t) rfl ?_ ?_ ?_ h i t (by rw [hp]; rfl)
      · exact fun t now st₁ st₂ hI hb => (offers_atomically hb).trans hI
      · exact fun m st₁ hI => hI
      · exact fun u st₁ t hI hs => (start_eq_some hI).mp hs
    obtain ⟨u, hu, hr⟩ := htask
    obtain ⟨hc, hpay, -, -, offer, ho, rfl⟩ := readOffer_eq_ok.mp hr
    exact ⟨Num.val_ofJs _, u, hu, hc, hpay, rfl, rfl, offer, ho, rfl⟩
  · exact Runs.allSteps_of_inv (I := fun _ => True) (C := fun _ _ => True) (fun _ _ _ _ _ _ => trivial)
      (fun _ _ _ _ _ hs ha => sameWallets_of_not_commit hs ha) trivial (Runs.meets_true _ _ _)

/-- Two refunds of user `u` overlap: the second has to read again, and a token
arrives in between. -/
def demoOverlap : List (Act ℕ OrderUpdate Timestamp AppUpdate) :=
  [.enter 0 (demoCancellation "a"), .enter 1 (demoCancellation "b"), .read 0 1, .read 1 2, .commit 0, .abort 1,
   .update (.fcmToken "u" (some "token")), .read 1 3, .commit 1]

/-- Both refunds have been committed. -/
theorem overlap_loses_nothing : ∃ s, Runs.run (Optimistic.step refunds) (.init demoStore) demoOverlap = some s ∧
    (s.store.users "u").map (fun user => (currentBalance user, user.fcmToken)) = some (110, some "token") ∧
    s.store.transactions "u" = [refundRecord ⟨"o", "u", 100⟩ 1, refundRecord ⟨"o", "u", 10⟩ 3] ∧
    NothingLost demoStore "u" demoUser demoOverlap s := by
  have h : (Runs.run (Optimistic.step refunds) (.init demoStore) demoOverlap).map (fun s =>
      ((s.store.users "u").map fun user => (currentBalance user, user.fcmToken), s.store.transactions "u")) =
      some (some (110, some "token"), [refundRecord ⟨"o", "u", 100⟩ 1, refundRecord ⟨"o", "u", 10⟩ 3]) := by
    decide +kernel
  obtain ⟨s, hs, h⟩ := Option.map_eq_some_iff.mp h
  obtain ⟨huser, hrecords⟩ := Prod.mk.inj h
  exact ⟨s, hs, huser, hrecords, refunds_lose_nothing (by decide) hs⟩

end Sayaaratukcom
