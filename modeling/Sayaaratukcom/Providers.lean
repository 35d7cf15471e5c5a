import Sayaaratukcom.Forms
import Sayaaratukcom.Functions
import Sayaaratukcom.Lib.Runs

/-!
# Applications of providers

`registerProvider` sets the whole document of the provider, which is also where
the provider's app keeps the token that `notifyOnOfferAccepted` sends to. A
second application therefore drops the token, and the balance with it.
-/

namespace Sayaaratukcom

open Documents (Doc Value Collection)

structure ProviderState where
  store : Store
  providers : Collection
  lastToken : String → Option String

inductive ProviderAct where
  | registerProvider (asserts fails : Bool) (uid : String) (args : ProviderArgs)
  /-- The provider's app stores its token, or a balance is changed; there has to
  be a document. -/
  | storeToken (uid token : String)
  | setBalance (uid : String) (balance : Num)
  | accept (u : OfferUpdate)

namespace ProviderState

def view (s : ProviderState) : Store :=
  { s.store with providers := fun uid => (s.providers.get uid).map ProviderDoc.ofDoc }

def step (s : ProviderState) : ProviderAct → Option ProviderState
  | .registerProvider asserts fails uid args =>
    some { s with providers :=
      (Sayaaratukcom.registerProvider asserts fails uid args ⟨s.providers, [.form args true], []⟩).docs }
  | .storeToken uid token =>
    if uid = "" ∨ token = "" then none
    else (s.providers.update uid "fcmToken" (.string token)).map fun providers =>
      { s with providers, lastToken := Function.update s.lastToken uid (some token) }
  | .setBalance uid balance =>
    (s.providers.update uid "balance" balance.toValue).map fun providers => { s with providers }
  | .accept _ => some s

end ProviderState

/-- Every field that is stored, other than the four of the form, has its value in
the new document. -/
def FieldsKept (d d' : Doc) : Prop :=
  ∀ k v, k ∉ ["phone", "identity", "name", "service"] → d k = some v → d' k = some v

/-- An application keeps the other fields of every document there is, and an
acceptance is pushed to the last token that the provider has stored. -/
def Undamaged (s : ProviderState) (a : ProviderAct) (s' : ProviderState) : Prop :=
  match a with
  | .registerProvider _ _ _ _ =>
    ∀ uid d, s.providers.get uid = some d → ∃ d', s'.providers.get uid = some d' ∧ FieldsKept d d'
  | .accept u =>
    u.before.status ≠ .accepted → u.after.status = .accepted →
      ∀ uid token, u.after.serviceProvider[0]? = some uid → s.lastToken uid = some token →
        ∃ m, notifyOnOfferAccepted u s.view = some m ∧ m.token = token
  | .storeToken _ _ | .setBalance _ _ => True

/-- Beside the four fields of the form the document has nothing but what the
form writes: its own `uid`, an empty avatar and a balance of 0, and no token. -/
def OnlyDefaults (uid : String) (d : Doc) : Prop :=
  ∀ k v, d k = some v → k ∈ ["phone", "identity", "name", "service"] ∨
    k = "uid" ∧ v = .string uid ∨ k = "avatarUrl" ∧ v = .string "" ∨ k = "balance" ∧ v = .double 0

/-- An application that is written finds no document, or one with defaults only. -/
def AppliesFresh (s : ProviderState) : ProviderAct → Prop
  | .registerProvider _ fails uid _ =>
    fails = true ∨ uid = "" ∨ ∀ d, s.providers.get uid = some d → OnlyDefaults uid d
  | .storeToken _ _ | .setBalance _ _ | .accept _ => True

/-! ## What an application keeps -/

theorem docs_registerProvider (asserts fails : Bool) (uid : String) (args : ProviderArgs)
    (s : FormState ProviderArgs) :
    (registerProvider asserts fails uid args s).docs =
      if fails = true ∨ uid = "" then s.docs else s.docs.set uid (newProvider uid args).toJson := by
  unfold registerProvider
  split
  · rename_i h
    rw [if_pos (Or.inr h.2)]
  · simp only [FormState.pop, FormState.trySet]
    split <;> rfl

theorem newProvider_field {uid : String} {args : ProviderArgs} {k : String} {v : Value}
    (hk : k ∉ ["phone", "identity", "name", "service"]) : (newProvider uid args).toJson k = some v ↔
      k = "uid" ∧ v = .string uid ∨ k = "avatarUrl" ∧ v = .string "" ∨ k = "balance" ∧ v = .double 0 := by
  simp only [List.mem_cons, List.not_mem_nil, or_false, not_or] at hk
  simp only [ProviderModel.toJson, newProvider, Doc.ofList_cons, hk, if_false]
  by_cases h1 : k = "uid"
  · subst h1
    simp [eq_comm]
  by_cases h2 : k = "avatarUrl"
  · subst h2
    simp [eq_comm]
  by_cases h3 : k = "balance"
  · subst h3
    simp [eq_comm]
  simp [h1, h2, h3, Doc.ofList]

theorem fieldsKept_iff (uid : String) (args : ProviderArgs) (d : Doc) :
    FieldsKept d (newProvider uid args).toJson ↔ OnlyDefaults uid d := by
  constructor
  · intro h k v hv
    by_cases hk : k ∈ ["phone", "identity", "name", "service"]
    · exact Or.inl hk
    · exact Or.inr ((newProvider_field hk).mp (h k v hk hv))
  · intro h k v hk hv
    exact (newProvider_field hk).mpr ((h k v hv).resolve_left hk)

section
variable {s s' : ProviderState} {a : ProviderAct}

theorem register_undamaged_iff {asserts fails : Bool} {uid : String} {args : ProviderArgs}
    (h : s.step (.registerProvider asserts fails uid args) = some s') :
    Undamaged s (.registerProvider asserts fails uid args) s' ↔
      AppliesFresh s (.registerProvider asserts fails uid args) := by
  obtain rfl := Option.some.inj h
  simp only [Undamaged, AppliesFresh, docs_registerProvider]
  by_cases hf : fails = true ∨ uid = ""
  · simp only [hf, if_true]
    exact iff_of_true (fun uid d hd => ⟨d, hd, fun _ _ _ hv => hv⟩) (hf.imp_right Or.inl)
  simp only [hf, if_false, Collection.get_set]
  constructor
  · intro h
    refine Or.inr (Or.inr fun d hd => ?_)
    obtain ⟨d', hd', hk⟩ := h uid d hd
    rw [if_pos rfl, Option.some.injEq] at hd'
    exact (fieldsKept_iff uid args d).mp (hd' ▸ hk)
  · intro h uid' d hd
    have h' := (h.resolve_left fun hfails => hf (Or.inl hfails)).resolve_left fun hu => hf (Or.inr hu)
    by_cases hu : uid' = uid
    · subst hu
      exact ⟨_, if_pos rfl, (fieldsKept_iff uid' args d).mpr (h' d hd)⟩
    · exact ⟨d, by rw [if_neg hu, hd], fun _ _ _ hv => hv⟩

/-! ## The last token -/

def TokensKept (s : ProviderState) : Prop :=
  ∀ uid token, s.lastToken uid = some token → uid ≠ "" ∧ token ≠ "" ∧
    ∃ d, s.providers.get uid = some d ∧ d "fcmToken" = some (.string token)

theorem tokens_register (hi : TokensKept s) {asserts fails : Bool} {uid : String} {args : ProviderArgs}
    (h : Undamaged s (.registerProvider asserts fails uid args) s') (hl : s'.lastToken = s.lastToken) :
    TokensKept s' := by
  intro uid' token ht
  obtain ⟨hu, htok, d, hd, hv⟩ := hi uid' token (hl ▸ ht)
  obtain ⟨d', hd', hk⟩ := h uid' d hd
  exact ⟨hu, htok, d', hd', hk _ _ (by decide) hv⟩

theorem tokens_update (hi : TokensKept s) {uid k : String} {v : Value} {providers : Collection}
    (h : s.providers.update uid k v = some providers) (hk : k ≠ "fcmToken") :
    TokensKept { s with providers } := by
  obtain ⟨d, hd, rfl⟩ := Collection.update_eq_some.mp h
  intro uid' token ht
  obtain ⟨hu, htok, d', hd', hv⟩ := hi uid' token ht
  refine ⟨hu, htok, ?_⟩
  simp only [Collection.get_set]
  by_cases he : uid' = uid
  · subst he
    obtain rfl := Option.some.inj (hd.symm.trans hd')
    exact ⟨_, if_pos rfl, by rw [Doc.set_of_ne hk.symm, hv]⟩
  · exact ⟨d', by rw [if_neg he, hd'], hv⟩

theorem tokens_step (hi : TokensKept s) (hc : AppliesFresh s a) (h : s.step a = some s') : TokensKept s' := by
  cases a with
  | registerProvider asserts fails uid args =>
    have hu := (register_undamaged_iff h).mpr hc
    obtain rfl := Option.some.inj h
    exact tokens_register hi hu rfl
  | storeToken uid token =>
    simp only [ProviderState.step] at h
    split at h
    · cases h
    · rename_i hne
      obtain ⟨hu, htok⟩ := not_or.mp hne
      obtain ⟨providers, hp, rfl⟩ := Option.map_eq_some_iff.mp h
      obtain ⟨d, hd, rfl⟩ := Collection.update_eq_some.mp hp
      intro uid' token' ht
      simp only [Function.update_apply] at ht
      simp only [Collection.get_set]
      split at ht
      · rename_i he
        obtain rfl := Option.some.inj ht
        exact ⟨he ▸ hu, htok, _, if_pos he, Doc.set_self⟩
      · rename_i he
        obtain ⟨hu', htok', d', hd', hv⟩ := hi uid' token' ht
        exact ⟨hu', htok', d', by rw [if_neg he, hd'], hv⟩
  | setBalance uid balance =>
    obtain ⟨providers, hp, rfl⟩ := Option.map_eq_some_iff.mp h
    exact tokens_update hi hp (by decide)
  | accept u =>
    obtain rfl := Option.some.inj h
    exact hi

theorem accept_pushed (hi : TokensKept s) (u : OfferUpdate) : Undamaged s (.accept u) s' := by
  intro hb ha uid token hp ht
  obtain ⟨hu, htok, d, hd, hv⟩ := hi uid token ht
  have hprov : s.view.providers uid = some ⟨some token⟩ := by
    simp [ProviderState.view, hd, ProviderDoc.ofDoc, Doc.read, hv, Value.asString]
  simp [notifyOnOfferAccepted, hb, ha, hp, hprov]

end

/-- From any documents, before a token has been stored: nothing is damaged
exactly in the runs whose applications find no document but one with defaults. -/
theorem undamaged_iff (st : Store) (providers : Collection) (as : List ProviderAct) :
    Runs.AllSteps ProviderState.step Undamaged ⟨st, providers, fun _ => none⟩ as ↔
      Runs.Meets ProviderState.step AppliesFresh ⟨st, providers, fun _ => none⟩ as := by
  refine Runs.allSteps_iff_meets (I := TokensKept) (fun s a s' hi hc h => tokens_step hi hc h) ?_ ?_ ?_
  · intro s a s' hi hc h
    cases a with
    | registerProvider asserts fails uid args => exact (register_undamaged_iff h).mpr hc
    | storeToken uid token => trivial
    | setBalance uid balance => trivial
    | accept u => exact accept_pushed hi u
  · intro s a s' _ h hu
    cases a with
    | registerProvider asserts fails uid args => exact (register_undamaged_iff h).mp hu
    | storeToken uid token => trivial
    | setBalance uid balance => trivial
    | accept u => trivial
  · intro uid token ht
    cases ht

def demoApplication : ProviderAct := .registerProvider true false "p" ⟨"+966500000001", "1", "ورشة", "ورشة"⟩

def demoAcceptance : OfferUpdate := ⟨"a", demoOffer "a" 100, (demoOffer "a" 100).withStatus .accepted⟩

/-- A provider that has stored a token applies again, and the acceptance of its
offer is not pushed. -/
theorem reapplied_not_pushed : ¬ Runs.AllSteps ProviderState.step Undamaged
    ⟨demoStore, .empty, fun _ => none⟩
    ([demoApplication, .storeToken "p" "token", demoApplication] ++ [.accept demoAcceptance]) := by
  have h : (Runs.run ProviderState.step ⟨demoStore, .empty, fun _ => none⟩
      [demoApplication, .storeToken "p" "token", demoApplication]).map (fun s =>
        (s.lastToken "p", notifyOnOfferAccepted demoAcceptance s.view)) = some (some "token", none) := by
    decide +kernel
  obtain ⟨s, hs, heq⟩ := Option.map_eq_some_iff.mp h
  obtain ⟨ht, hn⟩ := Prod.mk.inj heq
  intro hall
  obtain ⟨-, haccept⟩ := Runs.allSteps_append _ hs hall
  obtain ⟨m, hm, -⟩ := ((Runs.allSteps_cons _ rfl).mp haccept).1 (by decide) rfl "p" "token" rfl ht
  rw [hn] at hm
  cases hm

end Sayaaratukcom
