import Mathlib.Data.List.FinRange
import Sayaaratukcom.Chat
import Sayaaratukcom.Listings

/-!
# Conversations

Any number of `Chat` pages, of the two sides of an order or of one user, send messages to
the chats of the orders, while the app writes its other documents. A page knows of its own
calls only; what it shows is `streamChat`.
-/

namespace Sayaaratukcom

/-! ## Lists side by side -/

theorem flatMap_update_of_notMem {ι β : Type*} [DecidableEq ι] {f : ι → List β} {j : ι} {l : List ι} (ms : List β)
    (hj : j ∉ l) : l.flatMap (Function.update f j ms) = l.flatMap f := by
  refine List.flatMap_congr fun k hk => ?_
  rw [Function.update_of_ne]
  rintro rfl
  exact hj hk

theorem flatMap_update_perm {ι β : Type*} [DecidableEq ι] {f : ι → List β} {j : ι} {l : List ι} (ms : List β)
    (hl : l.Nodup) (hj : j ∈ l) :
    (l.flatMap (Function.update f j (f j ++ ms))).Perm (l.flatMap f ++ ms) := by
  induction l with
  | nil => cases hj
  | cons i l ih =>
    obtain ⟨hi, hl⟩ := List.nodup_cons.mp hl
    rw [List.flatMap_cons, List.flatMap_cons]
    by_cases he : i = j
    · subst he
      rw [flatMap_update_of_notMem _ hi, Function.update_self, List.append_assoc, List.append_assoc]
      exact List.perm_append_comm.append_left _
    · rw [Function.update_of_ne he, List.append_assoc]
      exact (ih hl ((List.mem_cons.mp hj).resolve_left (Ne.symm he))).append_left _

/-! ## Pages and the store -/

structure Conversations (n : ℕ) where
  db : Database
  pages : Fin n → ChatPage

inductive ConversationEvent (n : ℕ) where
  /-- `id` is the one that `doc()` has made for the message, if the event stores one. -/
  | page (j : Fin n) (id : String) (e : ChatEvent)
  | other (a : AppWrite)

def AppWrite.isMessage : AppWrite → Bool
  | .sendMessage _ _ _ _ _ => true
  | .registerUser _ _ _ _ _ | .sendOrder _ _ _ _ | .update _ | .appUpdate _ | .refund _ _ _ => false

namespace Conversations

variable {n : ℕ} (orderOf : Fin n → String)

def init (uidOf : Fin n → String) : Conversations n := ⟨.empty, fun j => .init (uidOf j)⟩

def stored (s : Conversations n) : ConversationEvent n → Option (Fin n × Send)
  | .page j _ (.answer i false) => (s.pages j).pending[i]?.map (j, ·)
  | .page _ _ (.answer _ true) | .page _ _ (.edit _) | .page _ _ (.send _) | .other _ => none

def write (s : Conversations n) (e : ConversationEvent n) : Option AppWrite :=
  match e with
  | .page _ id _ => (s.stored e).map fun p => .sendMessage id (orderOf p.1) p.2.user p.2.draft.text p.2.sentAt
  | .other a => some a

def writeDb (s : Conversations n) (e : ConversationEvent n) : Option Database :=
  match s.write orderOf e with
  | none => some s.db
  | some a => s.db.step a

def step (s : Conversations n) (e : ConversationEvent n) : Option (Conversations n) :=
  match e with
  | .page j _ pe =>
    match (s.pages j).step pe, s.writeDb orderOf e with
    | some page, some db => some ⟨db, Function.update s.pages j page⟩
    | _, _ => none
  | .other a => if a.isMessage then none else (s.writeDb orderOf e).map fun db => { s with db }

def tapped (j : Fin n) (s : Conversations n) : ConversationEvent n → Option Send
  | .page j' _ (.send now) => if j' = j then some ⟨(s.pages j).field, (s.pages j).uid, now⟩ else none
  | .page _ _ (.edit _) | .page _ _ (.answer _ _) | .other _ => none

/-- What a failed write of page `j` was to store. -/
def failed (j : Fin n) (s : Conversations n) : ConversationEvent n → Option Send
  | .page j' _ (.answer i true) => if j' = j then (s.pages j).pending[i]? else none
  | .page _ _ (.answer _ false) | .page _ _ (.edit _) | .page _ _ (.send _) | .other _ => none

def messages (s : Conversations n) (o : String) : List ChatModel :=
  ((List.finRange n).filter fun j => orderOf j = o).flatMap fun j => (s.pages j).messages

end Conversations

/-! ## What a page does -/

namespace ChatPage

variable {s s' : ChatPage}

theorem step_answer_pending {i : ℕ} {fails : Bool} (h : s.step (.answer i fails) = some s') :
    ∃ m, s.pending[i]? = some m ∧ s'.pending = s.pending.eraseIdx i ∧
      s'.chat = if fails then s.chat else s.chat ++ [m] := by
  obtain ⟨m, hm, -, hchat⟩ := step_answer h
  refine ⟨m, hm, ?_, hchat⟩
  simp only [step, hm] at h
  obtain rfl := Option.some.inj h
  cases fails <;> rfl

/-- The calls that have ended well or are under way, with those that an event adds or ends. -/
theorem held_answer {i : ℕ} {fails : Bool} (h : s.step (.answer i fails) = some s') :
    (s.chat ++ s.pending).Perm ((if fails then s.pending[i]? else none).toList ++ (s'.chat ++ s'.pending)) := by
  obtain ⟨m, hm, hpending, hchat⟩ := step_answer_pending h
  obtain ⟨hi, hget⟩ := List.getElem?_eq_some_iff.mp hm
  have hperm : s.pending.Perm (m :: s.pending.eraseIdx i) := by
    rw [← hget]
    exact (List.getElem_cons_eraseIdx_perm hi).symm
  rw [hpending, hchat]
  cases fails with
  | true =>
    simp only [if_true, hm, Option.toList_some]
    exact (hperm.append_left _).trans List.perm_middle
  | false =>
    simp only [Bool.false_eq_true, if_false, Option.toList_none, List.nil_append, List.append_assoc]
    exact hperm.append_left _

end ChatPage

/-! ## What a step does -/

namespace Conversations

variable {n : ℕ} {orderOf : Fin n → String} {s s' : Conversations n} {e : ConversationEvent n}

theorem step_page {j : Fin n} {id : String} {pe : ChatEvent} (h : s.step orderOf (.page j id pe) = some s') :
    ∃ page db, (s.pages j).step pe = some page ∧ s.writeDb orderOf (.page j id pe) = some db ∧
      s' = ⟨db, Function.update s.pages j page⟩ := by
  simp only [step] at h
  split at h
  · rename_i page db hpage hdb
    exact ⟨page, db, hpage, hdb, (Option.some.inj h).symm⟩
  · cases h

theorem held_step (j : Fin n) (h : s.step orderOf e = some s') :
    (((s.pages j).chat ++ (s.pages j).pending) ++ (s.tapped j e).toList).Perm
      ((s.failed j e).toList ++ ((s'.pages j).chat ++ (s'.pages j).pending)) := by
  cases e with
  | other a =>
    obtain ⟨-, h⟩ := Option.ite_none_left_eq_some.mp h
    obtain ⟨db, -, rfl⟩ := Option.map_eq_some_iff.mp h
    simp [tapped, failed]
  | page j' id pe =>
    obtain ⟨page, db, hpage, -, rfl⟩ := step_page h
    by_cases hj : j' = j
    · subst hj
      dsimp only
      rw [Function.update_self]
      cases pe with
      | edit text =>
        obtain rfl := Option.some.inj hpage
        simp [tapped, failed, ChatPage.setText]
      | send now =>
        obtain rfl := Option.some.inj hpage
        simp [tapped, failed]
      | answer i fails =>
        have hheld := ChatPage.held_answer hpage
        cases fails <;> simpa [tapped, failed] using hheld
    · dsimp only
      rw [Function.update_of_ne (Ne.symm hj)]
      cases pe with
      | edit text => simp [tapped, failed]
      | send now => simp [tapped, failed, hj]
      | answer i fails => cases fails <;> simp [tapped, failed, hj]

/-! ## What is stored -/

theorem messages_update (orderOf : Fin n → String) {j : Fin n} {page : ChatPage} {ms : List ChatModel}
    (h : page.messages = (s.pages j).messages ++ ms) (db : Database) (o : String) :
    (messages orderOf ⟨db, Function.update s.pages j page⟩ o).Perm
      (s.messages orderOf o ++ if orderOf j = o then ms else []) := by
  have hupdate : (fun k => (Function.update s.pages j page k).messages) =
      Function.update (fun k => (s.pages k).messages) j ((s.pages j).messages ++ ms) := by
    funext k
    by_cases hk : k = j
    · subst hk
      rw [Function.update_self, Function.update_self, h]
    · rw [Function.update_of_ne hk, Function.update_of_ne hk]
  unfold messages
  rw [hupdate]
  by_cases ho : orderOf j = o
  · rw [if_pos ho]
    refine flatMap_update_perm ms ((List.nodup_finRange n).filter _) ?_
    exact List.mem_filter.mpr ⟨List.mem_finRange j, decide_eq_true ho⟩
  · rw [if_neg ho, List.append_nil, flatMap_update_of_notMem]
    intro hj
    exact ho (of_decide_eq_true (List.mem_filter.mp hj).2)

/-- The message that an event stores, on its page and in the chat. -/
theorem messages_page {j : Fin n} {pe : ChatEvent} {page : ChatPage} (id : String)
    (h : (s.pages j).step pe = some page) :
    page.messages = (s.pages j).messages ++ ((s.stored (.page j id pe)).map fun p => p.2.messageModel).toList := by
  cases pe with
  | edit text =>
    obtain rfl := Option.some.inj h
    simp [stored, ChatPage.messages, ChatPage.setText]
  | send now =>
    obtain rfl := Option.some.inj h
    simp [stored, ChatPage.messages]
  | answer i fails =>
    obtain ⟨m, hm, -, hchat⟩ := ChatPage.step_answer_pending h
    cases fails <;> simp [stored, ChatPage.messages, hm, hchat]

theorem fst_of_stored {j : Fin n} {id : String} {pe : ChatEvent} {p : Fin n × Send}
    (h : s.stored (.page j id pe) = some p) : p.1 = j := by
  cases pe with
  | edit text => cases h
  | send now => cases h
  | answer i fails =>
    cases fails with
    | true => cases h
    | false =>
      obtain ⟨m, -, rfl⟩ := Option.map_eq_some_iff.mp h
      rfl

theorem chat_add_message (w : Written) (id o' : String) (m : Send) (o : String) :
    (w.add (.sendMessage id o' m.user m.draft.text m.sentAt)).chat o =
      w.chat o ++ if o' = o then [m.messageModel] else [] := by
  by_cases ho : o' = o
  · subst ho
    rw [if_pos rfl]
    exact Function.update_self ..
  · rw [if_neg ho, List.append_nil]
    exact Function.update_of_ne (Ne.symm ho) ..

theorem chat_add_other (w : Written) {a : AppWrite} (h : a.isMessage = false) : (w.add a).chat = w.chat := by
  cases a with
  | sendMessage id o uid message now => cases h
  | update wr => cases wr <;> rfl
  | _ => rfl

/-- The documents are those of the writes so far, and a chat has what its pages have stored. -/
structure Holds (orderOf : Fin n → String) (s : Conversations n) (w : Written) : Prop where
  stores : Stores s.db w
  chat : ∀ o, (s.messages orderOf o).Perm (w.chat o)

theorem holds_init (uidOf : Fin n → String) : Holds orderOf (init uidOf) .empty := by
  refine ⟨stores_empty, fun o => ?_⟩
  have hnil : (init uidOf).messages orderOf o = [] := List.flatMap_eq_nil_iff.mpr fun _ _ => rfl
  rw [hnil]
  exact .nil

theorem holds_step {w : Written} (hh : Holds orderOf s w) (h : s.step orderOf e = some s') :
    Holds orderOf s' ((s.write orderOf e).toList.foldl Written.add w) := by
  cases e with
  | other a =>
    obtain ⟨ha, h⟩ := Option.ite_none_left_eq_some.mp h
    obtain ⟨db, hdb, rfl⟩ := Option.map_eq_some_iff.mp h
    refine ⟨stores_step hh.stores hdb, fun o => ?_⟩
    rw [show ((s.write orderOf (.other a)).toList.foldl Written.add w) = w.add a from rfl,
      chat_add_other w (Bool.eq_false_iff.mpr ha)]
    exact hh.chat o
  | page j id pe =>
    obtain ⟨page, db, hpage, hdb, rfl⟩ := step_page h
    have hmessages := messages_page id hpage
    cases hst : s.stored (.page j id pe) with
    | none =>
      rw [hst] at hmessages
      simp only [writeDb, write, hst, Option.map_none] at hdb ⊢
      obtain rfl := Option.some.inj hdb
      refine ⟨hh.stores, fun o => ?_⟩
      have hperm := messages_update orderOf hmessages s.db o
      simp only [Option.map_none, Option.toList_none, ite_self, List.append_nil] at hperm
      exact hperm.trans (hh.chat o)
    | some p =>
      obtain ⟨j', m⟩ := p
      obtain rfl := fst_of_stored hst
      rw [hst] at hmessages
      simp only [writeDb, write, hst, Option.map_some] at hdb ⊢
      refine ⟨stores_step hh.stores hdb, fun o => (messages_update orderOf hmessages db o).trans ?_⟩
      rw [Option.toList_some, List.foldl_cons, List.foldl_nil, chat_add_message]
      exact (hh.chat o).append_right _

end Conversations

/-- Whatever the pages of a conversation do at the same time, what is sent by a tap has been
stored once, is under way, or was refused; and the chat shows what its pages have stored,
the newest first. -/
theorem conversations_kept {n : ℕ} (orderOf uidOf : Fin n → String) {es : List (ConversationEvent n)}
    {s : Conversations n} (h : Runs.run (Conversations.step orderOf) (.init uidOf) es = some s) :
    (∀ j, (Runs.collect (Conversations.step orderOf) (Conversations.tapped j) (.init uidOf) es).Perm
      (Runs.collect (Conversations.step orderOf) (Conversations.failed j) (.init uidOf) es ++
        ((s.pages j).chat ++ (s.pages j).pending))) ∧
    ∀ o, ∃ ms, streamChat o s.db = some ms ∧ (ms.Pairwise fun a b => b.sentAt ≤ a.sentAt) ∧
      ms.Perm (s.messages orderOf o) := by
  constructor
  · intro j
    have hbalance := Runs.collect_balance (fun s : Conversations n => (s.pages j).chat ++ (s.pages j).pending)
      (fun _ _ _ hs => Conversations.held_step j hs) h
    simpa [Conversations.init, ChatPage.init] using hbalance
  · intro o
    have hh := Runs.run_collect (R := Conversations.Holds orderOf) (C := fun _ _ => True)
      (fun _ _ _ _ hr _ hs => Conversations.holds_step hr hs) (Conversations.holds_init uidOf)
      (Runs.meets_true _ _ _) h
    obtain ⟨ms, hms, hp⟩ := read_chat hh.stores o
    exact ⟨ms, hms, (listing_chat s.db o).sorted ms hms, hp.trans (hh.chat o).symm⟩

/-- Two pages of one order; the answers come in the other order than the taps. -/
def demoTalk : List (ConversationEvent 2) :=
  [.page 0 "" (.edit "أين أنت؟"), .page 0 "" (.send 1), .page 1 "" (.edit "في الطريق"), .page 1 "" (.send 2),
   .page 1 "b" (.answer 0 false), .page 0 "a" (.answer 0 false)]

theorem demo_conversation : ∃ s, Runs.run (Conversations.step fun _ => "o")
      (.init fun j => if j = 0 then "u" else "p") demoTalk = some s ∧
    (s.messages (fun _ => "o") "o").map ChatModel.message = ["أين أنت؟", "في الطريق"] ∧
    ∃ ms, streamChat "o" s.db = some ms ∧ (ms.Pairwise fun a b => b.sentAt ≤ a.sentAt) ∧
      ms.Perm (s.messages (fun _ => "o") "o") := by
  have h : (Runs.run (Conversations.step fun _ => "o") (.init fun j => if j = 0 then "u" else "p") demoTalk).map
      (fun s => (s.messages (fun _ => "o") "o").map ChatModel.message) = some ["أين أنت؟", "في الطريق"] := by
    decide +kernel
  obtain ⟨s, hs, hchat⟩ := Option.map_eq_some_iff.mp h
  exact ⟨s, hs, hchat, (conversations_kept _ _ hs).2 "o"⟩

end Sayaaratukcom
