import Sayaaratukcom.Agreement
import Sayaaratukcom.Lib.Deliveries
import Sayaaratukcom.Lib.Paths

/-!
# Notifications of accepted offers

The updates of offers are delivered to `notifyOnOfferAccepted`, each at any time
after its write and at most once, while the providers' own app changes the
documents that hold their tokens. A write may fail here: `acceptOffer` and
`cancelOrder` catch the error, and the call ends with the writes it has made.
-/

namespace Sayaaratukcom

open Deliveries (received)
open Paths (IsPath)
open Threads (Thread adv halt)

/-! ## The handler -/

def OfferUpdate.accepts (u : OfferUpdate) : Prop := u.before.status ≠ .accepted ∧ u.after.status = .accepted

instance (u : OfferUpdate) : Decidable u.accepts := instDecidableAnd

/-- The first entry of `serviceProvider` names a provider with a token. -/
def OfferUpdate.HasAddressee (u : OfferUpdate) (providers : String → Option ProviderDoc) : Prop :=
  ∃ uid ∈ u.after.serviceProvider[0]?, uid ≠ "" ∧ ∃ doc ∈ providers uid, ∃ token ∈ doc.fcmToken, token ≠ ""

instance (u : OfferUpdate) (providers : String → Option ProviderDoc) : Decidable (u.HasAddressee providers) :=
  inferInstanceAs (Decidable (∃ uid ∈ u.after.serviceProvider[0]?, _))

def pushBody (offerId : String) : String := "تم قبول عرضك " ++ offerId ++ "، يرجى التفاعل مع المستخدم"

theorem pushBody_inj {f f' : String} : pushBody f = pushBody f' ↔ f = f' := by
  unfold pushBody
  rw [String.append_left_inj, String.append_right_inj]

section
variable {u : OfferUpdate} {st : Store} {m : Message}

theorem notify_eq_some : notifyOnOfferAccepted u st = some m ↔
    u.accepts ∧ ∃ uid doc token, u.after.serviceProvider[0]? = some uid ∧ uid ≠ "" ∧ st.providers uid = some doc ∧
      doc.fcmToken = some token ∧ token ≠ "" ∧ m = ⟨"تم قبول عرضك", pushBody u.offerId, token⟩ := by
  unfold notifyOnOfferAccepted OfferUpdate.accepts pushBody
  by_cases h : u.before.status ≠ .accepted ∧ u.after.status = .accepted
  · rw [if_pos h, and_iff_right h]
    constructor
    · intro hm
      split at hm
      · cases hm
      · cases hm
      · rename_i uid hne huid
        split at hm
        · cases hm
        · rename_i doc hdoc
          split at hm
          · cases hm
          · cases hm
          · rename_i token hne' htoken
            exact ⟨uid, doc, token, huid, hne, hdoc, htoken, hne', (Option.some.inj hm).symm⟩
    · rintro ⟨uid, doc, token, huid, hne, hdoc, htoken, hne', rfl⟩
      simp [huid, hdoc, htoken]
  · rw [if_neg h]
    exact iff_of_false (by simp) fun hm => h hm.1

theorem notify_isSome_iff : (notifyOnOfferAccepted u st).isSome ↔ u.accepts ∧ u.HasAddressee st.providers := by
  rw [Option.isSome_iff_exists]
  constructor
  · rintro ⟨m, hm⟩
    obtain ⟨ha, uid, doc, token, huid, hne, hdoc, htoken, hne', -⟩ := notify_eq_some.mp hm
    exact ⟨ha, uid, huid, hne, doc, hdoc, token, htoken, hne'⟩
  · rintro ⟨ha, uid, huid, hne, doc, hdoc, token, htoken, hne'⟩
    exact ⟨_, notify_eq_some.mpr ⟨ha, uid, doc, token, huid, hne, hdoc, htoken, hne', rfl⟩⟩

end

/-! ## Runs with notifications -/

structure Push where
  event : ℕ
  message : Option Message
  deriving DecidableEq

structure PushState where
  world : World
  providers : String → Option ProviderDoc
  updates : List OfferUpdate
  pushes : List Push

inductive PushAct where
  | world (a : Act)
  /-- The next write of call `i` fails. -/
  | fail (i : ℕ)
  /-- The provider's app changes the document, or it is deleted. -/
  | provider (uid : String) (doc : Option ProviderDoc)
  | notify (i : ℕ)
  deriving DecidableEq

def World.offerUpdates (w : World) (a : Act) (w' : World) : List OfferUpdate :=
  match (w.writer a).bind (·.next Call.writes) with
  | some wr => wr.offerUpdates w.store w'.store
  | none => []

def World.failed (w : World) (i : ℕ) : World := { w with pool := halt Call.writes w.pool i }

namespace PushState

def init (st : Store) : PushState := ⟨.init st, st.providers, [], []⟩

def view (s : PushState) : Store := { s.world.store with providers := s.providers }

def step (s : PushState) : PushAct → Option PushState
  | .world a => (s.world.step a).map fun w' =>
      { s with world := w', updates := s.updates ++ s.world.offerUpdates a w' }
  | .fail i => (s.world.pool[i]?.bind (·.next Call.writes)).map fun _ => { s with world := s.world.failed i }
  | .provider uid doc => some { s with providers := Function.update s.providers uid doc }
  | .notify i =>
    if i ∈ s.pushes.map Push.event then none
    else
      match s.updates[i]? with
      | some u => some { s with pushes := s.pushes ++ [⟨i, notifyOnOfferAccepted u s.view⟩] }
      | none => none

def messages (s : PushState) : List Message := s.pushes.filterMap Push.message

def sentFor (s : PushState) (f : String) : ℕ := s.messages.countP fun m => m.body = pushBody f

def log (s : PushState) (f : String) : List (OfferModel × OfferModel) :=
  (s.updates.filter fun u => u.offerId = f).map fun u => (u.before, u.after)

def acceptances (s : PushState) (f : String) : ℕ :=
  Paths.entries (fun e : OfferModel => e.status = .accepted) (s.log f)

def withdrawals (s : PushState) (f : String) : ℕ :=
  Paths.exits (fun e : OfferModel => e.status = .accepted) (s.log f)

end PushState

section
variable {w w' : World} {a : Act}

/-- A step changes one offer and makes its update, or changes none. -/
theorem offers_step (h : w.step a = some w') :
    w.offerUpdates a w' = [] ∧ (∀ f, w'.store.offers.get f = w.store.offers.get f) ∨
      ∃ (i : ℕ) (t : Thread Call) (f : String) (e e' : OfferModel), w.pool[i]? = some t ∧ OfferWrite f t e e' ∧
        w.store.offers.get f = some e ∧ w.offerUpdates a w' = [⟨f, e, e'⟩] ∧
          ∀ k, w'.store.offers.get k = if k = f then some e' else w.store.offers.get k := by
  cases moves_of_step h with
  | accept => exact Or.inl ⟨rfl, fun _ => rfl⟩
  | cancel => exact Or.inl ⟨rfl, fun _ => rfl⟩
  | deliver => exact Or.inl ⟨rfl, fun f => by rw [World.handled, handleOrderCancellation_offers]⟩
  | order hi hd hw =>
    refine Or.inl ⟨?_, fun _ => rfl⟩
    simp only [World.offerUpdates, World.writer, hi, Option.bind_some]
    cases hw <;> rfl
  | @offer i t f e e' hi _ he hw =>
    have hget : ∀ k, (w.wroteOffer i e').store.offers.get k = if k = f then some e' else w.store.offers.get k :=
      Store.get_putOffer he hw.id
    have he' : (w.wroteOffer i e').store.offers.get f = some e' := by rw [hget, if_pos rfl]
    refine Or.inr ⟨i, t, f, e, e', hi, hw, he, ?_, hget⟩
    simp only [World.offerUpdates, World.writer, hi, Option.bind_some]
    cases hw <;> simp only [Thread.next, Call.writes, acceptWrites, cancelWrites, List.getElem?_cons_succ,
      List.getElem?_cons_zero, Write.offerUpdates, he, he']

end

/-! ## What the updates are -/

/-- The update is what a call of the world makes of an offer of the first store. -/
structure OfferUpdate.Caused (st₀ : Store) (w : World) (u : OfferUpdate) : Prop where
  accepts : u.accepts → ∃ paid o, .accept paid o u.offerId ∈ w.pool.map Thread.call
  withdraws : u.before.status = .accepted → u.after.status ≠ .accepted →
    ∃ o, .cancel o u.offerId ∈ w.pool.map Thread.call
  terms : ∃ e₀, st₀.offers.get u.offerId = some e₀ ∧ e₀.serviceProvider = u.after.serviceProvider

theorem OfferModel.serviceProvider_of_terms {e e' : OfferModel} (h : e.terms = e'.terms) :
    e.serviceProvider = e'.serviceProvider :=
  show e.terms.serviceProvider = e'.terms.serviceProvider by rw [h]

theorem caused_mono {st₀ : Store} {w w' : World} {a : Act} {u : OfferUpdate} (h : w.step a = some w')
    (hc : u.Caused st₀ w) : u.Caused st₀ w' := by
  refine ⟨fun ha => ?_, fun hb ha => ?_, hc.terms⟩
  · obtain ⟨paid, o, hcall⟩ := hc.accepts ha
    exact ⟨paid, o, calls_step h hcall⟩
  · obtain ⟨o, hcall⟩ := hc.withdraws hb ha
    exact ⟨o, calls_step h hcall⟩

theorem caused_of_write {st₀ : Store} {w : World} (ha : Anchored st₀ w) {i : ℕ} {t : Thread Call} {f : String}
    {e e' : OfferModel} (hi : w.pool[i]? = some t) (he : w.store.offers.get f = some e) (hw : OfferWrite f t e e') :
    OfferUpdate.Caused st₀ w ⟨f, e, e'⟩ := by
  have hcall : t.call ∈ w.pool.map Thread.call := List.mem_map_of_mem (List.mem_of_getElem? hi)
  obtain ⟨e₀, he₀, hterms⟩ := ha.store.offer he
  have hsp := OfferModel.serviceProvider_of_terms hterms
  cases hw with
  | accept paid o => exact ⟨fun _ => ⟨paid, o, hcall⟩, fun _ hn => absurd rfl hn, e₀, he₀, hsp⟩
  | cancel o => exact ⟨fun hacc => (nomatch hacc.2), fun _ _ => ⟨o, hcall⟩, e₀, he₀, hsp⟩

/-! ## Steps with notifications -/

namespace PushState

structure Delivered (s : PushState) : Prop where
  once : (s.pushes.map Push.event).Nodup
  lt : ∀ i ∈ s.pushes.map Push.event, i < s.updates.length
  message : ∀ p ∈ s.pushes, ∃ u st, s.updates[p.event]? = some u ∧ p.message = notifyOnOfferAccepted u st

structure Inv (st₀ : Store) (s : PushState) : Prop where
  anchored : Anchored st₀ s.world
  caused : ∀ u ∈ s.updates, u.Caused st₀ s.world
  path : ∀ f e₀, st₀.offers.get f = some e₀ → ∃ e, s.world.store.offers.get f = some e ∧ IsPath e₀ (s.log f) e
  delivered : s.Delivered

section
variable {st₀ : Store} {s s' : PushState} {b : PushAct}

theorem inv_init (st : Store) : Inv st (.init st) where
  anchored := anchored_init st
  caused _ hu := nomatch hu
  path _ e₀ he₀ := ⟨e₀, he₀, rfl⟩
  delivered := ⟨List.nodup_nil, fun _ hi => (nomatch hi), fun _ hp => (nomatch hp)⟩

theorem delivered_updates (h : s.Delivered) (us : List OfferUpdate) (w : World) :
    Delivered { s with world := w, updates := s.updates ++ us } := by
  refine ⟨h.once, fun i hi => ?_, fun p hp => ?_⟩
  · rw [List.length_append]
    exact Nat.lt_add_right _ (h.lt i hi)
  · obtain ⟨u, st, hu, hm⟩ := h.message p hp
    refine ⟨u, st, ?_, hm⟩
    rw [List.getElem?_append_left (List.getElem?_eq_some_iff.mp hu).1, hu]

theorem delivered_notify (h : s.Delivered) {i : ℕ} (hi : i ∉ s.pushes.map Push.event) {u : OfferUpdate}
    (hu : s.updates[i]? = some u) (st : Store) :
    Delivered { s with pushes := s.pushes ++ [⟨i, notifyOnOfferAccepted u st⟩] } := by
  have hlt : i < s.updates.length := (List.getElem?_eq_some_iff.mp hu).1
  refine ⟨?_, ?_, List.forall_mem_append.mpr ⟨h.message, List.forall_mem_singleton.mpr ⟨u, st, hu, rfl⟩⟩⟩
  · rw [List.map_append, List.map_singleton]
    exact List.nodup_append_comm.mp (List.nodup_cons.mpr ⟨hi, h.once⟩)
  · rw [List.map_append, List.map_singleton]
    exact List.forall_mem_append.mpr ⟨h.lt, List.forall_mem_singleton.mpr hlt⟩

theorem log_append {f : String} {us : List OfferUpdate} {w : World} :
    log { s with world := w, updates := s.updates ++ us } f =
      s.log f ++ (us.filter fun u => u.offerId = f).map fun u => (u.before, u.after) := by
  simp [log]

theorem inv_world (hi : Inv st₀ s) {a : Act} {w' : World} (h : s.world.step a = some w') :
    Inv st₀ { s with world := w', updates := s.updates ++ s.world.offerUpdates a w' } := by
  have hold : ∀ u ∈ s.updates, u.Caused st₀ w' := fun u hu => caused_mono h (hi.caused u hu)
  rcases offers_step h with ⟨hus, hget⟩ | ⟨i, t, f, e, e', ht, hw, he, hus, hget⟩
  · refine ⟨anchored_step hi.anchored h, ?_, fun f e₀ he₀ => ?_, delivered_updates hi.delivered _ _⟩
    · simpa [hus] using hold
    · obtain ⟨e, he, hpath⟩ := hi.path f e₀ he₀
      refine ⟨e, (hget f).trans he, ?_⟩
      rw [hus, log_append]
      simpa using hpath
  · refine ⟨anchored_step hi.anchored h, ?_, fun k e₀ he₀ => ?_, delivered_updates hi.delivered _ _⟩
    · rw [hus]
      refine List.forall_mem_append.mpr ⟨hold, List.forall_mem_singleton.mpr ?_⟩
      exact caused_mono h (caused_of_write hi.anchored ht he hw)
    · obtain ⟨e₁, he₁, hpath⟩ := hi.path k e₀ he₀
      rw [hus, log_append]
      by_cases hk : f = k
      · subst hk
        obtain rfl := Option.some.inj (he.symm.trans he₁)
        refine ⟨e', by rw [hget, if_pos rfl], ?_⟩
        simpa using Paths.isPath_snoc.mpr ⟨hpath, rfl⟩
      · refine ⟨e₁, by rw [hget, if_neg (Ne.symm hk), he₁], ?_⟩
        simpa [hk] using hpath

theorem inv_failed (hi : Inv st₀ s) (i : ℕ) : Inv st₀ { s with world := s.world.failed i } := by
  have hcalls : (s.world.failed i).pool.map Thread.call = s.world.pool.map Thread.call := Threads.map_call_halt _
  refine ⟨{ hi.anchored with calls := fun c hc => hi.anchored.calls c (hcalls ▸ hc) }, fun u hu => ?_, hi.path,
    hi.delivered.once, hi.delivered.lt, hi.delivered.message⟩
  obtain ⟨haccepts, hwithdraws, hterms⟩ := hi.caused u hu
  rw [← hcalls] at haccepts hwithdraws
  exact ⟨haccepts, hwithdraws, hterms⟩

theorem inv_step (hi : Inv st₀ s) (h : s.step b = some s') : Inv st₀ s' := by
  cases b with
  | world a =>
    obtain ⟨w', hw, rfl⟩ := Option.map_eq_some_iff.mp h
    exact inv_world hi hw
  | fail i =>
    obtain ⟨wr, -, rfl⟩ := Option.map_eq_some_iff.mp h
    exact inv_failed hi i
  | provider uid doc =>
    obtain rfl := Option.some.inj h
    exact ⟨hi.anchored, hi.caused, hi.path, hi.delivered.once, hi.delivered.lt, hi.delivered.message⟩
  | notify i =>
    simp only [step] at h
    split at h
    · cases h
    · rename_i hn
      split at h
      · rename_i u hu
        obtain rfl := Option.some.inj h
        exact ⟨hi.anchored, hi.caused, hi.path, delivered_notify hi.delivered hn hu _⟩
      · cases h

theorem inv_run {st : Store} {bs : List PushAct} (h : Runs.run step (init st) bs = some s) : Inv st s :=
  Runs.inv_run_free (fun _ _ _ hi hs => inv_step hi hs) (inv_init st) h

/-! ## Counting messages -/

theorem sentFor_eq (s : PushState) (f : String) :
    s.sentFor f = s.pushes.countP fun p => (p.message.map fun m => decide (m.body = pushBody f)).getD false := by
  rw [sentFor, messages, List.countP_filterMap]

theorem acceptances_eq (s : PushState) (f : String) :
    s.acceptances f = s.updates.countP fun u => u.offerId = f ∧ u.accepts := by
  rw [acceptances, Paths.entries, log, List.countP_map, List.countP_filter]
  refine List.countP_congr fun u _ => ?_
  simp [OfferUpdate.accepts, and_comm]

def accepted (s : PushState) (f : String) : ℕ :=
  (received s.updates (s.pushes.map Push.event)).countP fun u => u.offerId = f ∧ u.accepts

theorem accepted_eq (s : PushState) (f : String) : s.accepted f = s.pushes.countP fun p =>
    (s.updates[p.event]?.map fun u => decide (u.offerId = f ∧ u.accepts)).getD false := by
  rw [accepted, received, List.countP_filterMap, List.countP_map]
  rfl

theorem accepted_le (h : s.Delivered) (f : String) : s.accepted f ≤ s.acceptances f := by
  rw [accepted, acceptances_eq]
  exact (Deliveries.received_subperm h.once h.lt).countP_le _

theorem sentFor_le (h : s.Delivered) (f : String) : s.sentFor f ≤ s.accepted f := by
  rw [sentFor_eq, accepted_eq]
  refine List.countP_mono_left fun p hp hsent => ?_
  obtain ⟨u, st, hu, hm⟩ := h.message p hp
  cases hmsg : p.message with
  | none => simp [hmsg] at hsent
  | some m =>
    obtain ⟨hacc, uid, doc, token, -, -, -, -, -, rfl⟩ := notify_eq_some.mp (hm.symm.trans hmsg)
    have hf : u.offerId = f := by simpa [hmsg, pushBody_inj] using hsent
    simp [hu, hf, hacc]

/-- Messages, like acceptances, are one ahead of withdrawals while the offer is accepted. -/
theorem acceptances_add (hi : Inv st₀ s) {f : String} {e₀ : OfferModel} (he₀ : st₀.offers.get f = some e₀) :
    ∃ e, s.world.store.offers.get f = some e ∧
      s.acceptances f + (if e₀.status = .accepted then 1 else 0) =
        s.withdrawals f + (if e.status = .accepted then 1 else 0) := by
  obtain ⟨e, he, hpath⟩ := hi.path f e₀ he₀
  exact ⟨e, he, Paths.entries_add _ hpath⟩

theorem withdrawals_eq_zero (hi : Inv st₀ s) {f : String}
    (hn : ∀ o, .cancel o f ∉ s.world.pool.map Thread.call) : s.withdrawals f = 0 := by
  rw [withdrawals, Paths.exits, log, List.countP_eq_zero]
  intro e he
  obtain ⟨u, hu, rfl⟩ := List.mem_map.mp he
  obtain ⟨hmem, hf⟩ := List.mem_filter.mp hu
  rw [decide_eq_true_eq]
  rintro ⟨hb, ha⟩
  obtain ⟨o, hc⟩ := (hi.caused u hmem).withdraws hb ha
  exact hn o (of_decide_eq_true hf ▸ hc)

end

/-- While no `cancelOrder` names an offer, its provider is told at most once that it
has been accepted, however often `acceptOffer` is called. -/
theorem pushed_at_most_once {st : Store} {f : String} {e₀ : OfferModel} (he₀ : st.offers.get f = some e₀)
    {bs : List PushAct} {s : PushState} (h : Runs.run step (init st) bs = some s)
    (hn : ∀ o, .cancel o f ∉ s.world.pool.map Thread.call) :
    s.sentFor f + (if e₀.status = .accepted then 1 else 0) ≤ 1 := by
  have hi := inv_run h
  obtain ⟨e, -, hadd⟩ := acceptances_add hi he₀
  have hle := (sentFor_le hi.delivered f).trans (accepted_le hi.delivered f)
  rw [withdrawals_eq_zero hi hn] at hadd
  have hone : (if e.status = .accepted then 1 else 0) ≤ 1 := by split <;> simp
  omega

def demoTokenStore : Store :=
  { demoStore with providers := Function.update demoStore.providers "p" (some ⟨some "token"⟩) }

/-- Both taps on the accept button of offer `a` go through, the second on a page
that shows the order as it was. -/
def demoTwoTaps : List PushAct :=
  [.world (.accept 0 0 "o" "a"), .world (.write 0), .world (.write 0), .world (.write 0),
   .world (.accept 0 0 "o" "a"), .world (.write 1), .world (.write 1), .world (.write 1), .notify 1, .notify 0]

theorem demo_pushed_once :
    ∃ s, Runs.run step (init demoTokenStore) demoTwoTaps = some s ∧ s.sentFor "a" + 0 ≤ 1 := by
  have h : (Runs.run step (init demoTokenStore) demoTwoTaps).map (fun s =>
      decide (s.world.pool.map Thread.call = [.accept true "o" "a", .accept true "o" "a"])) = some true := by
    decide +kernel
  obtain ⟨s, hs, hcalls⟩ := Option.map_eq_some_iff.mp h
  have he₀ : demoTokenStore.offers.get "a" = some (demoOffer "a" 100) := by decide
  refine ⟨s, hs, pushed_at_most_once he₀ hs fun o hc => ?_⟩
  rw [of_decide_eq_true hcalls] at hc
  simp at hc

/-! ## When every acceptance reaches its provider -/

/-- An acceptance is delivered while its provider has a token. -/
def Reaches (s : PushState) : PushAct → Prop
  | .notify i => ∀ u ∈ s.updates[i]?, u.accepts → u.HasAddressee s.providers
  | .world _ | .fail _ | .provider _ _ => True

instance (s : PushState) : ∀ b, Decidable (s.Reaches b)
  | .notify i => inferInstanceAs (Decidable (∀ u ∈ s.updates[i]?, u.accepts → u.HasAddressee s.providers))
  | .world _ | .fail _ | .provider _ _ => .isTrue trivial

def AllReached (s : PushState) : Prop :=
  ∀ p ∈ s.pushes, ∀ u, s.updates[p.event]? = some u → u.accepts → p.message.isSome

section
variable {st₀ : Store} {s s' : PushState} {b : PushAct}

theorem allReached_step (hd : s.Delivered) (ha : s.AllReached) (hc : s.Reaches b) (h : s.step b = some s') :
    s'.AllReached := by
  cases b with
  | world a =>
    obtain ⟨w', -, rfl⟩ := Option.map_eq_some_iff.mp h
    intro p hp u hu hacc
    obtain ⟨u', st, hu', -⟩ := hd.message p hp
    simp only [List.getElem?_append_left (List.getElem?_eq_some_iff.mp hu').1] at hu
    exact ha p hp u hu hacc
  | fail i =>
    obtain ⟨wr, -, rfl⟩ := Option.map_eq_some_iff.mp h
    exact ha
  | provider uid doc =>
    obtain rfl := Option.some.inj h
    exact ha
  | notify i =>
    simp only [step] at h
    split at h
    · cases h
    · split at h
      · rename_i u hu
        obtain rfl := Option.some.inj h
        refine List.forall_mem_append.mpr ⟨ha, List.forall_mem_singleton.mpr fun u' hu' hacc => ?_⟩
        obtain rfl := Option.some.inj (hu.symm.trans hu')
        exact notify_isSome_iff.mpr ⟨hacc, hc u hu hacc⟩
      · cases h

theorem accepted_le_sentFor (hd : s.Delivered) (ha : s.AllReached) (f : String) : s.accepted f ≤ s.sentFor f := by
  rw [sentFor_eq, accepted_eq]
  refine List.countP_mono_left fun p hp hev => ?_
  obtain ⟨u, st, hu, hm⟩ := hd.message p hp
  rw [hu] at hev
  obtain ⟨rfl, hacc⟩ := of_decide_eq_true hev
  obtain ⟨m, hmsg⟩ := Option.isSome_iff_exists.mp (ha p hp u hu hacc)
  obtain ⟨-, uid, doc, token, -, -, -, -, -, rfl⟩ := notify_eq_some.mp (hm.symm.trans hmsg)
  simp [hmsg]

theorem accepted_eq_acceptances (hd : s.Delivered)
    (hall : ∀ i < s.updates.length, i ∈ s.pushes.map Push.event) (f : String) : s.accepted f = s.acceptances f := by
  rw [accepted, acceptances_eq]
  exact (Deliveries.received_perm hd.once hd.lt hall).countP_eq _

end

/-- When every update has been delivered, and each acceptance while its provider had
a token, the messages for an offer and its withdrawals tell whether it is accepted. -/
theorem acceptances_pushed {st : Store} {f : String} {e₀ : OfferModel} (he₀ : st.offers.get f = some e₀)
    {bs : List PushAct} (hc : Runs.Meets step Reaches (init st) bs) {s : PushState}
    (h : Runs.run step (init st) bs = some s) (hall : ∀ i < s.updates.length, i ∈ s.pushes.map Push.event) :
    ∃ e, s.world.store.offers.get f = some e ∧
      s.sentFor f + (if e₀.status = .accepted then 1 else 0) =
        s.withdrawals f + (if e.status = .accepted then 1 else 0) := by
  have hinv : s.Delivered ∧ s.AllReached := by
    refine Runs.inv_run (I := fun s => Inv st s ∧ s.AllReached) (fun s b s' hi hcb hs => ?_)
      ⟨inv_init st, fun p hp => (nomatch hp)⟩ hc h |>.imp Inv.delivered id
    exact ⟨inv_step hi.1 hs, allReached_step hi.1.delivered hi.2 hcb hs⟩
  obtain ⟨hd, ha⟩ := hinv
  obtain ⟨e, he, hadd⟩ := acceptances_add (inv_run h) he₀
  refine ⟨e, he, ?_⟩
  rw [Nat.le_antisymm (sentFor_le hd f) (accepted_le_sentFor hd ha f), accepted_eq_acceptances hd hall f]
  exact hadd

def demoAcceptedTwice : List PushAct :=
  [.world (.accept 0 0 "o" "a"), .world (.write 0), .world (.write 0), .world (.write 0), .notify 0,
   .world (.cancel 3 "o"), .world (.write 1), .world (.write 1),
   .world (.accept 0 0 "o" "a"), .world (.write 2), .world (.write 2), .world (.write 2), .notify 2, .notify 1]

theorem demo_acceptances_pushed : ∃ s, Runs.run step (init demoTokenStore) demoAcceptedTwice = some s ∧
    ∃ e, s.world.store.offers.get "a" = some e ∧
      s.sentFor "a" + 0 = s.withdrawals "a" + (if e.status = .accepted then 1 else 0) := by
  have h : (Runs.run step (init demoTokenStore) demoAcceptedTwice).map (fun s =>
      decide (∀ i < s.updates.length, i ∈ s.pushes.map Push.event)) = some true := by decide +kernel
  obtain ⟨s, hs, hall⟩ := Option.map_eq_some_iff.mp h
  have he₀ : demoTokenStore.offers.get "a" = some (demoOffer "a" 100) := by decide
  exact ⟨s, hs, acceptances_pushed he₀ (by decide +kernel) hs (of_decide_eq_true hall)⟩

/-! ## What a message says and to whom -/

/-- The step sends nothing, or one message: to the current token of the first
provider of an offer whose order has had a call of `acceptOffer` with it. -/
def Addressed (st₀ : Store) (s s' : PushState) : Prop :=
  s'.messages = s.messages ∨ ∃ f e₀ paid uid doc m, st₀.offers.get f = some e₀ ∧
    .accept paid e₀.orderId f ∈ s.world.pool.map Thread.call ∧ e₀.serviceProvider[0]? = some uid ∧
    s.providers uid = some doc ∧ doc.fcmToken = some m.token ∧ m.body = pushBody f ∧ s'.messages = s.messages ++ [m]

theorem addressed_step {st₀ : Store} {s s' : PushState} {b : PushAct} (hi : Inv st₀ s) (h : s.step b = some s') :
    Addressed st₀ s s' := by
  cases b with
  | world a =>
    obtain ⟨w', -, rfl⟩ := Option.map_eq_some_iff.mp h
    exact Or.inl rfl
  | fail i =>
    obtain ⟨wr, -, rfl⟩ := Option.map_eq_some_iff.mp h
    exact Or.inl rfl
  | provider uid doc =>
    obtain rfl := Option.some.inj h
    exact Or.inl rfl
  | notify i =>
    simp only [step] at h
    split at h
    · cases h
    · split at h
      · rename_i u hu
        obtain rfl := Option.some.inj h
        cases hm : notifyOnOfferAccepted u s.view with
        | none => exact Or.inl (by simp [messages])
        | some m =>
          obtain ⟨hacc, uid, doc, token, huid, -, hdoc, htoken, -, rfl⟩ := notify_eq_some.mp hm
          have hcaused := hi.caused u (List.mem_of_getElem? hu)
          obtain ⟨e₀, he₀, hsp⟩ := hcaused.terms
          obtain ⟨paid, o, hcall⟩ := hcaused.accepts hacc
          obtain ⟨-, e₁, he₁, rfl⟩ := hi.anchored.calls _ hcall
          obtain rfl := Option.some.inj (he₀.symm.trans he₁)
          refine Or.inr ⟨u.offerId, e₀, paid, uid, doc, ⟨"تم قبول عرضك", pushBody u.offerId, token⟩, he₀, hcall,
            hsp ▸ huid, hdoc, htoken, rfl, ?_⟩
          simp [messages]
      · cases h

theorem pushes_addressed (st : Store) (bs : List PushAct) :
    Runs.AllSteps step (fun s _ s' => Addressed st s s') (init st) bs :=
  Runs.allSteps_of_inv (fun _ _ _ hi _ hs => inv_step hi hs) (fun _ _ _ hi _ hs => addressed_step hi hs)
    (inv_init st) (Runs.meets_true step _ bs)

end PushState

end Sayaaratukcom
