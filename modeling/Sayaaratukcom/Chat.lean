import Sayaaratukcom.Json
import Sayaaratukcom.Lib.Runs
import Sayaaratukcom.SendOrder

/-!
# The text field of a chat

The send button starts `sendMessage` with the text of the field and clears the
field when the call ends. `sendMessage` catches the errors of its write, so the
call ends in the same way whether or not the message has been stored, and by
then the field may hold another text.
-/

namespace Sayaaratukcom

/-- A text in the field; each edit makes a new draft. -/
structure Draft where
  id : ℕ
  text : String
  deriving DecidableEq

/-- A call of `sendMessage`. -/
structure Send where
  draft : Draft
  user : String
  sentAt : Timestamp
  deriving DecidableEq

def Send.messageModel (m : Send) : ChatModel where
  user := m.user
  message := m.draft.text
  sentAt := m.sentAt

structure ChatPage where
  uid : String
  field : Draft
  edits : ℕ
  pending : List Send
  chat : List Send
  effects : List Effect

inductive ChatEvent where
  | edit (text : String)
  | send (now : Timestamp)
  | answer (i : ℕ) (fails : Bool)
  deriving DecidableEq

namespace ChatPage

def init (uid : String) : ChatPage := ⟨uid, ⟨0, ""⟩, 1, [], [], []⟩

def setText (s : ChatPage) (text : String) : ChatPage := { s with field := ⟨s.edits, text⟩, edits := s.edits + 1 }

def trySend (s : ChatPage) (m : Send) (fails : Bool) : ChatPage :=
  if fails then { s with effects := s.effects ++ [.log, .snackBar] } else { s with chat := s.chat ++ [m] }

def step (s : ChatPage) : ChatEvent → Option ChatPage
  | .edit text => some (s.setText text)
  | .send now => some { s with pending := s.pending ++ [⟨s.field, s.uid, now⟩] }
  | .answer i fails =>
    match s.pending[i]? with
    | none => none
    | some m => some (({ s with pending := s.pending.eraseIdx i }.trySend m fails).setText "")

def messages (s : ChatPage) : List ChatModel := s.chat.map Send.messageModel

def stored (s : ChatPage) (d : Draft) : ℕ := s.chat.countP fun m => m.draft = d

/-- No draft is stored twice; the draft of a call that is answered is stored, or
its text is in the field when the write has failed; and what was typed after the
tap is still there. -/
def Kept (s : ChatPage) (e : ChatEvent) (s' : ChatPage) : Prop :=
  (∀ m ∈ s'.chat, s'.stored m.draft = 1) ∧
  match e with
  | .edit _ | .send _ => True
  | .answer i fails => ∀ m ∈ s.pending[i]?,
    (s'.stored m.draft = 1 ∨ fails = true ∧ s'.field.text = m.draft.text) ∧
    (s.field ≠ m.draft → s'.field.text = s.field.text)

/-- When an answer comes the field has the text that was sent, or none; the draft
of a write that succeeds is not stored yet, and that of a write that fails is, or
has no text. -/
def KeepsText (s : ChatPage) : ChatEvent → Prop
  | .edit _ | .send _ => True
  | .answer i fails => ∀ m ∈ s.pending[i]?,
    (if fails then m.draft.text = "" ∨ s.stored m.draft = 1 else s.stored m.draft = 0) ∧
    (s.field = m.draft ∨ s.field.text = "")

section
variable {s s' : ChatPage} {e : ChatEvent}

theorem step_answer {i : ℕ} {fails : Bool} (h : s.step (.answer i fails) = some s') :
    ∃ m, s.pending[i]? = some m ∧ s'.field.text = "" ∧
      s'.chat = if fails then s.chat else s.chat ++ [m] := by
  simp only [step] at h
  split at h
  · cases h
  · rename_i m hm
    obtain rfl := Option.some.inj h
    refine ⟨m, hm, rfl, ?_⟩
    cases fails <;> rfl

theorem stored_append {m : Send} (d : Draft) (h : s'.chat = s.chat ++ [m]) :
    s'.stored d = s.stored d + if m.draft = d then 1 else 0 := by
  simp [stored, h, List.countP_append, List.countP_singleton]

theorem stored_congr (d : Draft) (h : s'.chat = s.chat) : s'.stored d = s.stored d := by
  rw [stored, stored, h]

theorem stored_pos {m : Send} (h : m ∈ s.chat) : 0 < s.stored m.draft := by
  rw [stored, List.countP_pos_iff]
  exact ⟨m, h, by simp⟩

theorem keepsText_of_kept (h : s.step e = some s') (hk : s.Kept e s') : s.KeepsText e := by
  cases e with
  | edit text => trivial
  | send now => trivial
  | answer i fails =>
    obtain ⟨m, hm, hf, hc⟩ := step_answer h
    obtain ⟨hw, hfield⟩ := hk.2 m hm
    rw [hf] at hw hfield
    intro m' hm'
    obtain rfl := Option.some.inj (hm.symm.trans hm')
    refine ⟨?_, ?_⟩
    · cases fails with
      | true =>
        rw [stored_congr m.draft hc] at hw
        exact hw.symm.imp_left fun hw => hw.2.symm
      | false =>
        have hone := hk.1 m (by rw [hc]; simp)
        rw [stored_append m.draft hc, if_pos rfl] at hone
        exact Nat.succ.inj hone
    · by_cases hd : s.field = m.draft
      · exact Or.inl hd
      · exact Or.inr (hfield hd).symm

theorem once_step (hi : ∀ m ∈ s.chat, s.stored m.draft = 1) (hc : s.KeepsText e) (h : s.step e = some s') :
    ∀ m ∈ s'.chat, s'.stored m.draft = 1 := by
  cases e with
  | edit text =>
    obtain rfl := Option.some.inj h
    exact hi
  | send now =>
    obtain rfl := Option.some.inj h
    exact hi
  | answer i fails =>
    obtain ⟨m, hm, -, hchat⟩ := step_answer h
    have hw := (hc m hm).1
    cases fails with
    | true =>
      intro m' hm'
      rw [stored_congr m'.draft hchat]
      rw [show s'.chat = s.chat from hchat] at hm'
      exact hi m' hm'
    | false =>
      intro m' hm'
      rw [stored_append m'.draft hchat]
      rw [hchat] at hm'
      rcases List.mem_append.mp hm' with hm' | hm'
      · have hne : m.draft ≠ m'.draft := by
          intro he
          have hpos := stored_pos hm'
          rw [← he, show s.stored m.draft = 0 from hw] at hpos
          exact absurd hpos (lt_irrefl 0)
        rw [if_neg hne, hi m' hm']
      · obtain rfl := List.mem_singleton.mp hm'
        rw [if_pos rfl, show s.stored m'.draft = 0 from hw]

theorem kept_of_keepsText (hi : ∀ m ∈ s.chat, s.stored m.draft = 1) (hc : s.KeepsText e) (h : s.step e = some s') :
    s.Kept e s' := by
  refine ⟨once_step hi hc h, ?_⟩
  cases e with
  | edit text => trivial
  | send now => trivial
  | answer i fails =>
    obtain ⟨m, hm, hf, hchat⟩ := step_answer h
    intro m' hm'
    obtain rfl := Option.some.inj (hm.symm.trans hm')
    obtain ⟨hw, hfield⟩ := hc m hm
    rw [hf]
    refine ⟨?_, fun hd => (hfield.resolve_left hd).symm⟩
    cases fails with
    | true =>
      rw [stored_congr m.draft hchat]
      exact hw.symm.imp_right fun hw => ⟨rfl, Eq.symm hw⟩
    | false =>
      rw [stored_append m.draft hchat, if_pos rfl, show s.stored m.draft = 0 from hw]
      exact Or.inl rfl

end

end ChatPage

/-- In every run, the texts are kept exactly when each answer meets the
condition. -/
theorem chat_kept_iff (uid : String) (es : List ChatEvent) :
    Runs.AllSteps ChatPage.step ChatPage.Kept (.init uid) es ↔
      Runs.Meets ChatPage.step ChatPage.KeepsText (.init uid) es := by
  refine Runs.allSteps_iff_meets (I := fun s => ∀ m ∈ s.chat, s.stored m.draft = 1) ?_ ?_ ?_
    (by simp [ChatPage.init])
  · intro s e s' hi hc h
    exact ChatPage.once_step hi hc h
  · intro s e s' hi hc h
    exact ChatPage.kept_of_keepsText hi hc h
  · intro s e s' _ h hk
    exact ChatPage.keepsText_of_kept h hk

/-- The write fails: the message is neither stored nor in the field. -/
theorem failed_message_lost : ¬ Runs.AllSteps ChatPage.step ChatPage.Kept (.init "u")
    ([.edit "مرحبا", .send 0] ++ [.answer 0 true]) := by
  intro h
  obtain ⟨-, hanswer⟩ := Runs.allSteps_append _ rfl h
  obtain ⟨hk, -⟩ := (Runs.allSteps_cons _ rfl).mp hanswer
  have hm := (hk.2 ⟨⟨1, "مرحبا"⟩, "u", 0⟩ rfl).1
  revert hm
  decide

/-- Text that is typed while a message is under way is erased when it is stored. -/
theorem typed_text_erased : ¬ Runs.AllSteps ChatPage.step ChatPage.Kept (.init "u")
    ([.edit "مرحبا", .send 0, .edit "كيف الحال"] ++ [.answer 0 false]) := by
  intro h
  obtain ⟨-, hanswer⟩ := Runs.allSteps_append _ rfl h
  obtain ⟨hk, -⟩ := (Runs.allSteps_cons _ rfl).mp hanswer
  have hf := (hk.2 ⟨⟨1, "مرحبا"⟩, "u", 0⟩ rfl).2 (by decide)
  revert hf
  decide

end Sayaaratukcom
