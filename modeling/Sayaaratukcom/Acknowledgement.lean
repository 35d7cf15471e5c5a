import Sayaaratukcom.Deployment

/-!
# What a fulfilled promise of the handler says

Everything that can fail in `handleOrderCancellation` stands in one `try` block
whose `catch` logs the error, so its promise is fulfilled whatever happens; the
refund is committed as a whole or not at all.
-/

namespace Sayaaratukcom

inductive HandlerError where
  | emptyPath -- `doc("")`
  | offerUnavailable
  | noSuchUser -- "No such user document!"
  | aborted
  | rejected
  deriving DecidableEq

inductive HandlerLog where
  | otherPayment -- "Payment option is not 'الدفع الإلكتروني'. No action taken."
  | noSuchOffer -- "No such offer document!"
  | updated -- "User balance updated and transaction created successfully"
  | failed (e : HandlerError) -- "Error processing order cancellation:"
  deriving DecidableEq

inductive Attempt where
  | aborted
  | rejected
  | completed
  deriving DecidableEq

/-- `attempts` are those that the SDK makes before it gives up. -/
structure HandlerFaults where
  offerReadFails : Bool
  attempts : List Attempt
  deriving DecidableEq

/-- An aborted attempt is made again; what the body throws is thrown at once. -/
def runTransaction (body : Except HandlerError Store) : List Attempt → Except HandlerError Store
  | [] => .error .aborted
  | .aborted :: attempts => runTransaction body attempts
  | .rejected :: _ => .error .rejected
  | .completed :: _ => body

def commitBody (t : RefundTask) (now : Timestamp) (st : Store) : Except HandlerError Store :=
  match refundBody t now (st.users t.userId) with
  | none => .error .noSuchUser
  | some commit => .ok (commit st)

def refundTry (x : HandlerFaults) (now : Timestamp) (u : OrderUpdate) (st : Store) :
    Except HandlerError (HandlerLog × Store) :=
  if u.after.offerId = "" then .error .emptyPath
  else if x.offerReadFails then .error .offerUnavailable
  else
    match st.offers.get u.after.offerId with
    | none => .ok (.noSuchOffer, st)
    | some offer =>
      if u.after.user = "" then .error .emptyPath
      else
        let t : RefundTask := { orderId := u.orderId, userId := u.after.user, offerPrice := offer.price }
        (runTransaction (commitBody t now st) x.attempts).map fun st' => (.updated, st')

inductive PromiseState where
  | fulfilled
  | rejected
  deriving DecidableEq

structure Invocation where
  promise : PromiseState
  log : Option HandlerLog
  store : Store

/-- How the promise of an `async` function ends with its body: an exception that
leaves the body rejects it. -/
def settle (st : Store) : Except HandlerError (Option HandlerLog × Store) → Invocation
  | .ok (log, st') => ⟨.fulfilled, log, st'⟩
  | .error _ => ⟨.rejected, none, st⟩

def invokeHandler (x : HandlerFaults) (now : Timestamp) (u : OrderUpdate) (st : Store) : Invocation :=
  settle st <|
    if u.cancels then
      if u.after.paymentOption = .electronic then
        ((refundTry x now u st).map fun r => (some r.1, r.2)).tryCatch fun e => .ok (some (.failed e), st)
      else .ok (some .otherPayment, st)
    else .ok (none, st)

/-- A fulfilled promise says that the refund is paid, a rejected one that no
balance and no record has changed. -/
def Acknowledges (u : OrderUpdate) (st : Store) (r : Invocation) : Prop :=
  (r.promise = .fulfilled → Paid u st r.store) ∧ (r.promise = .rejected → SameUsers st r.store)

/-- A refund is due, and nothing fails on the way to it: the first attempt that
is not aborted completes. -/
def RefundReached (x : HandlerFaults) (u : OrderUpdate) (st : Store) : Prop :=
  RefundDue u st ∧ x.offerReadFails = false ∧ x.attempts.find? (· ≠ .aborted) = some .completed

theorem runTransaction_eq_ok {body : Except HandlerError Store} {attempts : List Attempt} {st : Store} :
    runTransaction body attempts = .ok st ↔
      attempts.find? (· ≠ .aborted) = some .completed ∧ body = .ok st := by
  induction attempts with
  | nil => simp [runTransaction]
  | cons a attempts ih => cases a <;> simp [runTransaction, ih]

theorem commitBody_eq_ok {t : RefundTask} {now : Timestamp} {st st' : Store} :
    commitBody t now st = .ok st' ↔ ∃ user, st.users t.userId = some user ∧ st' = st.commitRefund t user now := by
  unfold commitBody
  cases st.users t.userId <;> simp [refundBody, eq_comm]

section
variable {x : HandlerFaults} {now : Timestamp} {u : OrderUpdate} {st : Store}

theorem refundTry_eq_ok {log : HandlerLog} {st' : Store} (h : refundTry x now u st = .ok (log, st')) :
    log = .noSuchOffer ∧ st' = st ∨
    log = .updated ∧ x.offerReadFails = false ∧ u.after.offerId ≠ "" ∧ u.after.user ≠ "" ∧
      ∃ offer user, st.offers.get u.after.offerId = some offer ∧ st.users u.after.user = some user ∧
        x.attempts.find? (· ≠ .aborted) = some .completed ∧
        st' = st.commitRefund ⟨u.orderId, u.after.user, offer.price⟩ user now := by
  unfold refundTry at h
  split at h
  · cases h
  rename_i hid
  split at h
  · cases h
  rename_i hread
  split at h
  · cases h
    exact Or.inl ⟨rfl, rfl⟩
  rename_i offer ho
  split at h
  · cases h
  rename_i huser
  cases hr : runTransaction (commitBody ⟨u.orderId, u.after.user, offer.price⟩ now st) x.attempts with
  | error e => simp [hr, Except.map] at h
  | ok st₁ =>
    simp only [hr, Except.map, Except.ok.injEq, Prod.mk.injEq] at h
    obtain ⟨rfl, rfl⟩ := h
    obtain ⟨hfind, hbody⟩ := runTransaction_eq_ok.mp hr
    obtain ⟨user, hu, hst⟩ := commitBody_eq_ok.mp hbody
    exact Or.inr ⟨rfl, by simpa using hread, hid, huser, offer, user, ho, hu, hfind, hst⟩

theorem refundTry_of_reached (now : Timestamp) (h : RefundReached x u st) : ∃ t user, readOffer u st = .ok t ∧
    st.users u.after.user = some user ∧ refundTry x now u st = .ok (.updated, st.commitRefund t user now) := by
  obtain ⟨⟨hc, hp, ⟨hf, offer, ho⟩, hne, user, hu⟩, hread, hfind⟩ := h
  let t : RefundTask := { orderId := u.orderId, userId := u.after.user, offerPrice := offer.price }
  have hbody : commitBody t now st = .ok (st.commitRefund t user now) := commitBody_eq_ok.mpr ⟨user, hu, rfl⟩
  refine ⟨t, user, readOffer_eq_ok.mpr ⟨hc, hp, hf, hne, offer, ho, rfl⟩, hu, ?_⟩
  simp [refundTry, hf, hread, ho, hne, runTransaction_eq_ok.mpr ⟨hfind, hbody⟩, Except.map, t]

theorem invokeHandler_of_reached (now : Timestamp) (h : RefundReached x u st) : ∃ t user, readOffer u st = .ok t ∧
    st.users u.after.user = some user ∧ (invokeHandler x now u st).store = st.commitRefund t user now := by
  obtain ⟨t, user, ht, hu, hr⟩ := refundTry_of_reached now h
  refine ⟨t, user, ht, hu, ?_⟩
  simp [invokeHandler, h.1.1, h.1.2.1, hr, Except.map, settle, Except.tryCatch]

theorem invokeHandler_of_not_reached (h : ¬ RefundReached x u st) : (invokeHandler x now u st).store = st := by
  unfold invokeHandler
  split
  · rename_i hc
    split
    · rename_i hp
      cases hr : refundTry x now u st with
      | error e => rfl
      | ok r =>
        obtain ⟨log, st'⟩ := r
        rcases refundTry_eq_ok hr with ⟨-, rfl⟩ | ⟨-, hread, hf, hne, offer, user, ho, hu, hfind, -⟩
        · rfl
        · exact absurd ⟨⟨hc, hp, ⟨hf, offer, ho⟩, hne, user, hu⟩, hread, hfind⟩ h
    · rfl
  · rfl

end

theorem invokeHandler_fulfilled (x : HandlerFaults) (now : Timestamp) (u : OrderUpdate) (st : Store) :
    (invokeHandler x now u st).promise = .fulfilled := by
  unfold invokeHandler
  split
  · split
    · cases refundTry x now u st <;> rfl
    · rfl
  · rfl

theorem invokeHandler_store (now : Timestamp) (u : OrderUpdate) (st : Store) :
    (invokeHandler ⟨false, [.completed]⟩ now u st).store = (handleOrderCancellation now u st).2 := by
  have hiff : RefundReached ⟨false, [.completed]⟩ u st ↔ RefundDue u st := and_iff_left ⟨rfl, rfl⟩
  by_cases h : RefundDue u st
  · obtain ⟨t, user, ht, hu, hst⟩ := invokeHandler_of_reached now (hiff.mpr h)
    have huser : st.users t.userId = some user := by
      obtain ⟨-, -, -, -, offer, -, rfl⟩ := readOffer_eq_ok.mp ht
      exact hu
    rw [hst, handleOrderCancellation_of_ok ht]
    exact (st.refund_of_user t now huser).symm
  · rw [invokeHandler_of_not_reached (fun hr => h (hiff.mp hr)), handleOrderCancellation_of_not_due h]

/-- The promise is fulfilled in every case; the refund has been paid exactly when
nothing failed on the way to it, and otherwise the store is as it was. -/
theorem handler_acknowledges (x : HandlerFaults) (now : Timestamp) (u : OrderUpdate) (st : Store) :
    (invokeHandler x now u st).promise = .fulfilled ∧
    (RefundReached x u st → Paid u st (invokeHandler x now u st).store) ∧
    (¬ RefundReached x u st → (invokeHandler x now u st).store = st) := by
  refine ⟨invokeHandler_fulfilled x now u st, fun h => ?_, invokeHandler_of_not_reached⟩
  obtain ⟨t, user, ht, hu, hst⟩ := invokeHandler_of_reached now h
  rw [hst]
  exact paid_commitRefund ht hu ⟨rfl, rfl⟩ now

/-- The order's offer is unknown: the promise is fulfilled, and nothing is paid. -/
theorem fulfilled_unpaid : (demoCancellation "c").cancels ∧
    (demoCancellation "c").after.paymentOption = .electronic ∧
    ¬ Acknowledges (demoCancellation "c") demoStore
      (invokeHandler ⟨false, [.completed]⟩ 9 (demoCancellation "c") demoStore) := by
  refine ⟨by decide, rfl, fun h => ?_⟩
  exact not_paid_of_sameUsers ⟨rfl, rfl⟩ (h.1 (by decide +kernel))

end Sayaaratukcom
