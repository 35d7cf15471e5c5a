import Sayaaratukcom.AllOrNothing

/-!
# The payment page

`onPaymentResult` shows the result of the payment as soon as it is known. For a
`paid` result it starts `acceptOffer` first and does not await it, so the page
that is shown does not depend on what becomes of the writes, in whatever order
they and the page transition complete. The call ends with two pops, which close
whatever is on the screen then.
-/

namespace Sayaaratukcom

inductive PaymentStatus where
  | paid
  | failed
  | initiated
  | authorized
  | captured
  deriving DecidableEq

/-- A `PaymentResponse`, a `PaymentCanceledError`, or anything else. -/
inductive PaymentResult where
  | response (status : PaymentStatus)
  | canceledError
  | unknown
  deriving DecidableEq

structure ResultPage where
  statusMessage : String
  isSuccess : Bool
  deriving DecidableEq

def resultPage : PaymentResult → ResultPage
  | .response .paid => ⟨"تمت عملية الدفع بنجاح", true⟩
  | .response .failed => ⟨"فشل في إتمام عملية الدفع.", false⟩
  | .response .initiated | .response .authorized | .response .captured => ⟨"عملية الدفع قيد المعالجة.", false⟩
  | .canceledError => ⟨"تم إلغاء الدفع.", false⟩
  | .unknown => ⟨"نتيجة دفع غير معروفة.", false⟩

theorem resultPage_isSuccess {result : PaymentResult} :
    (resultPage result).isSuccess = true ↔ result = .response .paid := by
  cases result with
  | response status => cases status <;> decide
  | canceledError => decide
  | unknown => decide

inductive Route where
  | below
  | payment
  | result (page : ResultPage)
  deriving DecidableEq

/-- A `PaymentPage` on the screen, and the call of `acceptOffer` it has made. -/
structure PaymentState where
  store : Store
  call : Option (ℕ × List Write) -- how many writes it has made, and which are to come
  mounted : Bool -- until the transition that replaces the page completes
  routes : List Route
  shown : List ResultPage

namespace PaymentState

def init (st : Store) : PaymentState := ⟨st, none, true, [.payment, .below], []⟩

def push (s : PaymentState) (page : ResultPage) : PaymentState :=
  { s with routes := .result page :: s.routes, shown := s.shown ++ [page] }

def pushReplacement (s : PaymentState) (page : ResultPage) : PaymentState :=
  { s with routes := .result page :: s.routes.tail, shown := s.shown ++ [page] }

def pop (s : PaymentState) : PaymentState := { s with routes := s.routes.tail }

def startCall (s : PaymentState) (asserts : Bool) (orderId offerId : String) : PaymentState :=
  { s with call := if refThrows asserts orderId offerId then none else some (0, acceptWrites orderId offerId) }

end PaymentState

/-- A `paid` result shows the success page twice: in place of the payment page,
and once more after the `switch`. -/
def onPaymentResult (asserts : Bool) (offer : OfferModel) (result : PaymentResult) (s : PaymentState) :
    PaymentState :=
  match result with
  | .response .paid =>
    ((s.startCall asserts offer.orderId offer.offerId).pushReplacement (resultPage result)).push (resultPage result)
  | _ => s.push (resultPage result)

inductive PaymentEvent where
  | write
  | transition
  deriving DecidableEq

/-- On an unmounted page `Navigator.pop` throws inside the `try` block. -/
def PaymentState.step (fault : ℕ → Bool) (s : PaymentState) : PaymentEvent → Option PaymentState
  | .write =>
    match s.call with
    | none => none
    | some (_, []) => some { (if s.mounted then s.pop.pop else s) with call := none }
    | some (n, w :: ws) =>
      if fault n then some { s with call := none }
      else
        match w.apply s.store with
        | none => some { s with call := none }
        | some st => some { s with store := st, call := some (n + 1, ws) }
  | .transition => if s.mounted then some { s with mounted := false } else none

/-! ## What the call leaves, and what is shown -/

def PaymentState.outcome (fault : ℕ → Bool) (s : PaymentState) : Store :=
  match s.call with
  | none => s.store
  | some (n, ws) => (Script.exec Write.apply (fun i => fault (i + n)) ws s.store).1

theorem step_outcome {fault : ℕ → Bool} {s s' : PaymentState} {e : PaymentEvent}
    (h : s.step fault e = some s') : s'.outcome fault = s.outcome fault ∧ s'.shown = s.shown := by
  cases e with
  | transition =>
    simp only [PaymentState.step] at h
    split at h
    · rw [← Option.some.inj h]
      exact ⟨rfl, rfl⟩
    · cases h
  | write =>
    simp only [PaymentState.step] at h
    split at h
    · cases h
    · rename_i n hc
      rw [← Option.some.inj h]
      simp only [PaymentState.outcome, hc, Script.exec_nil]
      split <;> exact ⟨rfl, rfl⟩
    · rename_i n w ws hc
      split at h
      · rename_i hf
        rw [← Option.some.inj h]
        refine ⟨?_, rfl⟩
        simp only [PaymentState.outcome, hc]
        rw [Script.exec_fault (by simpa using hf)]
      · rename_i hf
        split at h
        · rename_i hw
          rw [← Option.some.inj h]
          refine ⟨?_, rfl⟩
          simp only [PaymentState.outcome, hc]
          rw [Script.exec_refused hw]
        · rename_i st hw
          rw [← Option.some.inj h]
          refine ⟨?_, rfl⟩
          simp only [PaymentState.outcome, hc]
          rw [Script.exec_landed (by simpa using hf) hw]
          simp only [Nat.add_right_comm _ 1, Nat.add_assoc]

/-- Whatever fails, the call comes to its end. -/
theorem call_ends (fault : ℕ → Bool) (s : PaymentState) :
    ∃ k s', Runs.run (PaymentState.step fault) s (List.replicate k .write) = some s' ∧ s'.call = none := by
  cases hc : s.call with
  | none => exact ⟨0, s, rfl, hc⟩
  | some p =>
    obtain ⟨n, ws⟩ := p
    -- by induction on the writes that are to come
    induction ws generalizing s n with
    | nil => exact ⟨1, { (if s.mounted then s.pop.pop else s) with call := none },
        by simp [Runs.run_cons, PaymentState.step, hc], rfl⟩
    | cons w ws ih =>
      by_cases hf : fault n = true
      · exact ⟨1, { s with call := none }, by simp [Runs.run_cons, PaymentState.step, hc, hf], rfl⟩
      · cases hw : w.apply s.store with
        | none => exact ⟨1, { s with call := none }, by simp [Runs.run_cons, PaymentState.step, hc, hf, hw], rfl⟩
        | some st =>
          obtain ⟨k, s', hr, hend⟩ := ih { s with store := st, call := some (n + 1, ws) } (n + 1) rfl
          have hs : s.step fault .write = some { s with store := st, call := some (n + 1, ws) } := by
            simp [PaymentState.step, hc, hf, hw]
          exact ⟨k + 1, s', (Runs.run_cons_eq_some _).mpr ⟨_, hs, hr⟩, hend⟩

theorem outcome_onPaymentResult (asserts : Bool) (fault : ℕ → Bool) (offer : OfferModel) (st : Store)
    (result : PaymentResult) : (onPaymentResult asserts offer result (.init st)).outcome fault =
      if result = .response .paid then (acceptOffer asserts fault offer.orderId offer.offerId st).1 else st := by
  split
  · rename_i hr
    subst hr
    rw [acceptOffer, tryWrites]
    by_cases h : refThrows asserts offer.orderId offer.offerId
    · simp [onPaymentResult, PaymentState.push, PaymentState.pushReplacement, PaymentState.startCall,
        PaymentState.outcome, PaymentState.init, h]
    · simp [onPaymentResult, PaymentState.push, PaymentState.pushReplacement, PaymentState.startCall,
        PaymentState.outcome, PaymentState.init, h]
  · rename_i hr
    cases result with
    | response status => cases status <;> first | rfl | exact absurd rfl hr
    | canceledError => rfl
    | unknown => rfl

theorem shown_onPaymentResult (asserts : Bool) (offer : OfferModel) (st : Store) (result : PaymentResult) :
    ∃ n, (onPaymentResult asserts offer result (.init st)).shown = List.replicate (n + 1) (resultPage result) := by
  cases result with
  | response status => cases status <;> first | exact ⟨0, rfl⟩ | exact ⟨1, rfl⟩
  | canceledError => exact ⟨0, rfl⟩
  | unknown => exact ⟨0, rfl⟩

/-! ## When the accepted offer is in place -/

/-- When the order is in progress with the offer and the offer is accepted once
`acceptOffer` has ended: all its writes land, or those that fail would have
found theirs done. -/
def AcceptReaches (asserts : Bool) (fault : ℕ → Bool) (o f : String) (st : Store) : Prop :=
  (Stopped asserts fault o f st ∧ Accepted o f st) ∨
  (¬ Stopped asserts fault o f st ∧
    ((fault 1 = true ∧ (∃ d, st.orders.get o = some d ∧ d.offerId = f) ∧ st.offerHas f .accepted) ∨
      (fault 1 = false ∧ (OfferFails fault 2 f st → st.offerHas f .accepted))))

theorem accepted_acceptOffer_iff {asserts : Bool} {fault : ℕ → Bool} {o f : String} {st : Store} :
    Accepted o f (acceptOffer asserts fault o f st).1 ↔ AcceptReaches asserts fault o f st := by
  unfold AcceptReaches
  by_cases hs : Stopped asserts fault o f st
  · rw [acceptOffer, acceptWrites, tryWrites_stopped rfl hs]
    simp [hs]
  obtain ⟨-, -, -, d, hd⟩ := not_stopped hs
  cases h1 : fault 1 with
  | true =>
    rw [accept_second_fails hs hd h1, accepted_putOrder hd (by simp)]
    simp [hs, hd]
  | false =>
    by_cases h2 : OfferFails fault 2 f st
    · rw [accept_third_fails hs hd h1 h2, accepted_putOrder hd (by simp)]
      simp [hs, h2]
    · exact iff_of_true (accept_whole_of_completes hs hd h1 h2) (Or.inr ⟨hs, Or.inr ⟨rfl, fun h => absurd h h2⟩⟩)

/-- If success is shown the order is in progress with the accepted offer; if it
is not, an error is shown and no success. -/
def PaidMeansAccepted (o f : String) (s : PaymentState) : Prop :=
  ((∃ page ∈ s.shown, page.isSuccess = true) → Accepted o f s.store) ∧
    (¬ Accepted o f s.store →
      (∃ page ∈ s.shown, page.isSuccess = false) ∧ ∀ page ∈ s.shown, page.isSuccess = false)

/-- Once the call has ended, in whatever order its writes and the transition
completed: success was shown for an accepted offer exactly when the result is
not `paid` or the call reaches acceptance. -/
theorem paidMeansAccepted_iff {asserts : Bool} {fault : ℕ → Bool} {offer : OfferModel} {result : PaymentResult}
    {st : Store} {es : List PaymentEvent} {s : PaymentState}
    (h : Runs.run (PaymentState.step fault) (onPaymentResult asserts offer result (.init st)) es = some s)
    (hend : s.call = none) :
    PaidMeansAccepted offer.orderId offer.offerId s ↔
      result ≠ .response .paid ∨ AcceptReaches asserts fault offer.orderId offer.offerId st := by
  obtain ⟨hout, hshown⟩ := Runs.inv_run_free (I := fun s =>
      s.outcome fault = (onPaymentResult asserts offer result (.init st)).outcome fault ∧
        s.shown = (onPaymentResult asserts offer result (.init st)).shown)
    (fun s e s' hi hs => ⟨(step_outcome hs).1.trans hi.1, (step_outcome hs).2.trans hi.2⟩) ⟨rfl, rfl⟩ h
  have hstore : s.store = s.outcome fault := by
    rw [PaymentState.outcome, hend]
  rw [hout, outcome_onPaymentResult] at hstore
  obtain ⟨n, hn⟩ := shown_onPaymentResult asserts offer st result
  rw [hn] at hshown
  by_cases hr : result = .response .paid
  · have hsuc : (resultPage result).isSuccess = true := resultPage_isSuccess.mpr hr
    rw [if_pos hr] at hstore
    rw [PaidMeansAccepted, hshown, hstore, accepted_acceptOffer_iff]
    generalize resultPage result = page at hsuc
    simp [hsuc, hr]
  · have hsuc : (resultPage result).isSuccess = false := by
      rw [Bool.eq_false_iff]
      exact fun h => hr (resultPage_isSuccess.mp h)
    simp [PaidMeansAccepted, hshown, hsuc, hr]

/-- A run in which the transition completes between two writes. -/
def demoPayment : List PaymentEvent := [.write, .transition, .write, .write, .write]

theorem demo_paidMeansAccepted : ∃ s, Runs.run (PaymentState.step fun _ => false)
    (onPaymentResult true (demoOffer "a" 100) (.response .paid) (.init demoStore)) demoPayment = some s ∧
    s.call = none ∧ (PaidMeansAccepted "o" "a" s ↔
      PaymentResult.response .paid ≠ .response .paid ∨ AcceptReaches true (fun _ => false) "o" "a" demoStore) := by
  have h : (Runs.run (PaymentState.step fun _ => false)
      (onPaymentResult true (demoOffer "a" 100) (.response .paid) (.init demoStore)) demoPayment).map (·.call) =
      some none := by decide
  obtain ⟨s, hs, hend⟩ := Option.map_eq_some_iff.mp h
  exact ⟨s, hs, hend, paidMeansAccepted_iff hs hend⟩

/-- The second write fails after the success page has been shown: the order is
in progress, but not with the offer that was paid. -/
theorem paid_not_accepted : ∃ s, Runs.run (PaymentState.step fun n => n == 1)
    (onPaymentResult true (demoOffer "a" 100) (.response .paid) (.init demoStore)) [.write, .write] = some s ∧
    s.call = none ∧ ¬ PaidMeansAccepted "o" "a" s := by
  have h : (Runs.run (PaymentState.step fun n => n == 1)
      (onPaymentResult true (demoOffer "a" 100) (.response .paid) (.init demoStore)) [.write, .write]).map
        (fun s => (s.call, s.shown, (s.store.orders.get "o").map (·.offerId))) =
      some (none, [⟨"تمت عملية الدفع بنجاح", true⟩, ⟨"تمت عملية الدفع بنجاح", true⟩], some "") := by decide
  obtain ⟨s, hs, heq⟩ := Option.map_eq_some_iff.mp h
  simp only [Prod.mk.injEq] at heq
  obtain ⟨hend, hshown, hf⟩ := heq
  refine ⟨s, hs, hend, fun hp => ?_⟩
  obtain ⟨⟨d, hd, -, ha⟩, -⟩ := hp.1 ⟨_, hshown ▸ List.mem_cons_self, rfl⟩
  rw [hd, Option.map_some, ha] at hf
  revert hf
  decide

/-! ## Which pages are left -/

def PaymentState.initOn (st : Store) (below : List Route) : PaymentState := ⟨st, none, true, .payment :: below, []⟩

/-- One result page, the right one, is on top of what was below the payment page,
and of the payment page itself when the payment did not succeed. -/
def OneResult (result : PaymentResult) (below : List Route) (s : PaymentState) : Prop :=
  ∃ page, s.routes = .result page :: (if result = .response .paid then below else .payment :: below) ∧
    (page.isSuccess = true ↔ result = .response .paid)

section
variable {asserts : Bool} {fault : ℕ → Bool} {offer : OfferModel} {result : PaymentResult} {st : Store}
  {below : List Route}

theorem routes_step {s s' : PaymentState} {e : PaymentEvent} (h : s.step fault e = some s') :
    (s.call = none → s'.call = none) ∧
      (s'.routes = s.routes ∨ s'.routes = s.routes.tail.tail ∧ s'.call = none ∧ s.call ≠ none) := by
  cases e with
  | transition =>
    obtain ⟨-, rfl⟩ := Option.ite_some_none_eq_some.mp h
    exact ⟨id, Or.inl rfl⟩
  | write =>
    simp only [PaymentState.step] at h
    split at h
    · cases h
    · rename_i n hc
      obtain rfl := Option.some.inj h
      refine ⟨fun _ => rfl, ?_⟩
      split
      · exact Or.inr ⟨rfl, rfl, by simp [hc]⟩
      · exact Or.inl rfl
    · rename_i n w ws hc
      split at h
      · obtain rfl := Option.some.inj h
        exact ⟨fun _ => rfl, Or.inl rfl⟩
      · split at h
        · obtain rfl := Option.some.inj h
          exact ⟨fun _ => rfl, Or.inl rfl⟩
        · obtain rfl := Option.some.inj h
          exact ⟨fun hn => by simp [hc] at hn, Or.inl rfl⟩

/-- The stack is as it was, or the call has ended with its two pops. -/
theorem routes_run {s₀ s : PaymentState} {es : List PaymentEvent}
    (h : Runs.run (PaymentState.step fault) s₀ es = some s) :
    s.routes = s₀.routes ∨ s₀.call ≠ none ∧ s.routes = s₀.routes.tail.tail := by
  have hi := Runs.inv_run_free (I := fun s : PaymentState => (s₀.call = none → s.call = none) ∧
    (s.routes = s₀.routes ∨ s.call = none ∧ s₀.call ≠ none ∧ s.routes = s₀.routes.tail.tail))
    (fun s e s' hi hs => ?_) ⟨id, Or.inl rfl⟩ h
  · exact hi.2.imp_right fun hr => hr.2
  · obtain ⟨hn, hr⟩ := hi
    obtain ⟨hn', hr'⟩ := routes_step hs
    refine ⟨fun h0 => hn' (hn h0), ?_⟩
    rcases hr with hr | ⟨hc, h0, hr⟩
    · rcases hr' with hr' | ⟨hr', hc', hc⟩
      · exact Or.inl (hr'.trans hr)
      · exact Or.inr ⟨hc', fun h0 => hc (hn h0), by rw [hr', hr]⟩
    · rcases hr' with hr' | ⟨-, -, hc'⟩
      · exact Or.inr ⟨hn' hc, h0, hr'.trans hr⟩
      · exact absurd hc hc'

theorem onPaymentResult_paid : (onPaymentResult asserts offer (.response .paid) (.initOn st below)).routes =
    .result (resultPage (.response .paid)) :: .result (resultPage (.response .paid)) :: below := rfl

theorem onPaymentResult_unpaid (hr : result ≠ .response .paid) :
    (onPaymentResult asserts offer result (.initOn st below)).routes =
        .result (resultPage result) :: .payment :: below ∧
      (onPaymentResult asserts offer result (.initOn st below)).call = none := by
  cases result with
  | response status => cases status <;> first | exact ⟨rfl, rfl⟩ | exact absurd rfl hr
  | canceledError => exact ⟨rfl, rfl⟩
  | unknown => exact ⟨rfl, rfl⟩

/-- On any pages, and however the writes and the transition are timed: a `paid`
result leaves two result pages, or none when the pops still find the payment page
mounted, and any other result leaves its one page. -/
theorem oneResult_iff {es : List PaymentEvent} {s : PaymentState}
    (h : Runs.run (PaymentState.step fault) (onPaymentResult asserts offer result (.initOn st below)) es = some s) :
    OneResult result below s ↔ result ≠ .response .paid := by
  have hrun := routes_run h
  refine ⟨fun hone hr => ?_, fun hr => ?_⟩
  · subst hr
    obtain ⟨page, hroutes, -⟩ := hone
    rw [if_pos rfl] at hroutes
    have hlen := congrArg List.length hroutes
    rcases hrun with hrun | ⟨-, hrun⟩
    · rw [hrun, onPaymentResult_paid] at hlen
      simp at hlen
    · rw [hrun, onPaymentResult_paid] at hlen
      simp at hlen
  · obtain ⟨hroutes, hcall⟩ : (onPaymentResult asserts offer result (.initOn st below)).routes = _ ∧ _ :=
      onPaymentResult_unpaid hr
    rcases hrun with hrun | ⟨hcall', -⟩
    · refine ⟨resultPage result, ?_, resultPage_isSuccess⟩
      rw [hrun, hroutes, if_neg hr]
    · exact absurd hcall hcall'

end

theorem demo_oneResult : ∃ s, Runs.run (PaymentState.step fun _ => false)
    (onPaymentResult true (demoOffer "a" 100) (.response .failed) (.initOn demoStore [.below])) [.transition] =
      some s ∧ (OneResult (.response .failed) [.below] s ↔ PaymentResult.response .failed ≠ .response .paid) := by
  have h : (Runs.run (PaymentState.step fun _ => false)
      (onPaymentResult true (demoOffer "a" 100) (.response .failed) (.initOn demoStore [.below]))
      [.transition]).isSome := by decide
  obtain ⟨s, hs⟩ := Option.isSome_iff_exists.mp h
  exact ⟨s, hs, oneResult_iff hs⟩

/-- All writes land before the transition completes: no result page is left. -/
theorem result_popped : ∃ s, Runs.run (PaymentState.step fun _ => false)
      (onPaymentResult true (demoOffer "a" 100) (.response .paid) (.initOn demoStore [.below]))
      [.write, .write, .write, .write] = some s ∧
    s.call = none ∧ s.routes = [.below] ∧ ¬ OneResult (.response .paid) [.below] s := by
  have h : (Runs.run (PaymentState.step fun _ => false)
      (onPaymentResult true (demoOffer "a" 100) (.response .paid) (.initOn demoStore [.below]))
      [.write, .write, .write, .write]).map (fun s => (s.call, s.routes)) = some (none, [.below]) := by decide
  obtain ⟨s, hs, heq⟩ := Option.map_eq_some_iff.mp h
  obtain ⟨hcall, hroutes⟩ := Prod.mk.inj heq
  refine ⟨s, hs, hcall, hroutes, fun hone => ?_⟩
  obtain ⟨page, hpage, -⟩ := hone
  rw [hroutes, if_pos rfl] at hpage
  cases hpage

end Sayaaratukcom
