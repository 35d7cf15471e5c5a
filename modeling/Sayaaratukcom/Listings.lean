import Sayaaratukcom.Readable

/-!
# Lists, newest first

`streamOrders`, `streamChat` and `streamTransactions` ask for documents by time,
the newest first. Whatever the documents are, a list has them in this order; and
when every write was later than those before, it is what was written, backwards.
-/

namespace Sayaaratukcom

open Documents (Doc Value Listing)

section
variable {d : Doc}

theorem read_createdAt {order : OrderModel} (h : OrderModel.fromJson d = some order) :
    d.read "createdAt" Value.asTimestamp = some order.createdAt := by
  unfold OrderModel.fromJson at h
  iterate 4 obtain ⟨_, -, h⟩ := Option.bind_eq_some_iff.mp h
  obtain ⟨createdAt, hc, h⟩ := Option.bind_eq_some_iff.mp h
  iterate 8 obtain ⟨_, -, h⟩ := Option.bind_eq_some_iff.mp h
  obtain rfl := Option.some.inj h
  exact hc

theorem read_sentAt {chat : ChatModel} (h : ChatModel.fromJson d = some chat) :
    d.read "sentAt" Value.asTimestamp = some chat.sentAt := by
  simp only [ChatModel.fromJson, Option.bind_eq_bind, Option.bind_eq_some_iff] at h
  obtain ⟨_, -, _, -, sentAt, hs, h⟩ := h
  obtain rfl := Option.some.inj h
  exact hs

theorem read_dueAt {r : TransactionModel} (h : TransactionModel.fromJson d = some r) :
    d.read "dueAt" Value.asTimestamp = some r.dueAt := by
  simp only [TransactionModel.fromJson, Option.bind_eq_bind, Option.bind_eq_some_iff] at h
  obtain ⟨_, -, _, -, dueAt, hd, h⟩ := h
  obtain rfl := Option.some.inj h
  exact hd

variable (db : Database)

theorem listing_orders (uid : String) : Listing OrderModel.fromJson OrderModel.createdAt "createdAt"
    (db.orders.docs.filter fun d => d.read "user" Value.asString == some uid) (streamOrders uid db) :=
  Documents.listing_newestFirst fun _ _ => read_createdAt

theorem listing_chat (o : String) :
    Listing ChatModel.fromJson ChatModel.sentAt "sentAt" (db.chat o).docs (streamChat o db) :=
  Documents.listing_newestFirst fun _ _ => read_sentAt

theorem listing_transactions (uid : String) : Listing TransactionModel.fromJson TransactionModel.dueAt "dueAt"
    (db.transactions uid).docs (streamTransactions uid db) :=
  Documents.listing_newestFirst fun _ _ => read_dueAt

end

/-- The orders, messages and transactions that are shown are the documents that have
a time, the newest first, unless one of them cannot be read. -/
theorem lists_newest_first (db : Database) (uid o : String) :
    Listing OrderModel.fromJson OrderModel.createdAt "createdAt"
      (db.orders.docs.filter fun d => d.read "user" Value.asString == some uid) (streamOrders uid db) ∧
    Listing ChatModel.fromJson ChatModel.sentAt "sentAt" (db.chat o).docs (streamChat o db) ∧
    Listing TransactionModel.fromJson TransactionModel.dueAt "dueAt" (db.transactions uid).docs
      (streamTransactions uid db) :=
  ⟨listing_orders db uid, listing_chat db o, listing_transactions db uid⟩

/-! ## Ever later writes -/

/-- The time that a write stamps on its document. -/
def AppWrite.now : AppWrite → Option Timestamp
  | .sendOrder _ _ now _ | .sendMessage _ _ _ _ now | .refund _ _ now => some now
  | .registerUser _ _ _ _ _ | .update _ | .appUpdate _ => none

/-- Times that each write adds to only with its own are among those of the writes. -/
theorem times_foldl (times : Written → List Timestamp)
    (h : ∀ w a, (times (w.add a)).Sublist (times w ++ a.now.toList)) (as : List AppWrite) :
    ∀ w, (times (as.foldl Written.add w)).Sublist (times w ++ as.filterMap AppWrite.now) := by
  induction as with
  | nil =>
    intro w
    rw [List.filterMap_nil, List.append_nil]
    exact List.Sublist.refl _
  | cons a as ih =>
    intro w
    have hnow : (a :: as).filterMap AppWrite.now = a.now.toList ++ as.filterMap AppWrite.now := by
      rw [List.filterMap_cons]
      cases a.now <;> rfl
    rw [List.foldl_cons, hnow, ← List.append_assoc]
    exact (ih (w.add a)).trans ((h w a).append_right _)

theorem times_orders (uid : String) (w : Written) (a : AppWrite) :
    (((w.add a).orders.filter fun d => d.user == uid).map OrderModel.createdAt).Sublist
      ((w.orders.filter fun d => d.user == uid).map OrderModel.createdAt ++ a.now.toList) := by
  have hmodify : ∀ (o : String) (f : OrderModel → OrderModel), (∀ d, (f d).user = d.user) →
      (∀ d, (f d).createdAt = d.createdAt) →
      ((w.modifyOrder o f).orders.filter fun d => d.user == uid).map OrderModel.createdAt =
        (w.orders.filter fun d => d.user == uid).map OrderModel.createdAt := by
    intro o f hu ht
    rw [Written.modifyOrder, List.filter_map, List.map_map]
    have hf : ∀ d, (if d.id = o then f d else d).user = d.user := fun d => by split <;> simp [hu]
    have hg : ∀ d, (if d.id = o then f d else d).createdAt = d.createdAt := fun d => by split <;> simp [ht]
    simp only [Function.comp_def, hf, hg]
  cases a with
  | sendOrder id uid' now args =>
    rw [Written.add, List.filter_append, List.map_append]
    refine List.Sublist.append_left ?_ _
    exact (List.filter_sublist (l := [newOrder id uid' now args])).map OrderModel.createdAt
  | update wr =>
    cases wr with
    | orderStatus o s =>
      rw [Written.add, hmodify o (·.withStatus s) (fun _ => rfl) (fun _ => rfl)]
      exact List.sublist_append_left ..
    | orderOffer o f =>
      rw [Written.add, hmodify o (·.withOffer f) (fun _ => rfl) (fun _ => rfl)]
      exact List.sublist_append_left ..
    | offerStatus => exact List.sublist_append_left ..
  | _ => exact List.sublist_append_left ..

theorem times_update {α : Type} {t : α → Timestamp} {ws : String → List α} {k k' : String} {a : α} :
    ((Function.update ws k' (ws k' ++ [a]) k).map t).Sublist ((ws k).map t ++ [t a]) := by
  by_cases hk : k = k'
  · subst hk
    rw [Function.update_self, List.map_append]
    exact List.Sublist.refl _
  · rw [Function.update_of_ne hk]
    exact List.sublist_append_left ..

theorem times_chat (o : String) (w : Written) (a : AppWrite) :
    (((w.add a).chat o).map ChatModel.sentAt).Sublist ((w.chat o).map ChatModel.sentAt ++ a.now.toList) := by
  cases a with
  | sendMessage id orderId uid message now => exact times_update
  | update wr => cases wr <;> exact List.sublist_append_left ..
  | _ => exact List.sublist_append_left ..

theorem times_transactions (uid : String) (w : Written) (a : AppWrite) :
    (((w.add a).transactions uid).map TransactionModel.dueAt).Sublist
      ((w.transactions uid).map TransactionModel.dueAt ++ a.now.toList) := by
  cases a with
  | refund id t now => exact times_update
  | update wr => cases wr <;> exact List.sublist_append_left ..
  | _ => exact List.sublist_append_left ..

/-- After writes of ever later times the lists are the orders, messages and refunds
that have been written, from the last to the first. -/
theorem lists_reversed {as : List AppWrite} {db : Database} (h : Runs.run Database.step .empty as = some db)
    (ht : (as.filterMap AppWrite.now).Pairwise (· < ·)) (uid o : String) :
    let w := as.foldl Written.add .empty
    streamOrders uid db = some (w.orders.filter fun d => d.user == uid).reverse ∧
    streamChat o db = some (w.chat o).reverse ∧
    ((∀ a ∈ as, a.Fits) → streamTransactions uid db = some (w.transactions uid).reverse) := by
  have hs : Stores db (as.foldl Written.add .empty) :=
    Runs.run_foldl (f := Written.add) (fun _ _ _ _ h0 hs => stores_step h0 hs) stores_empty h
  refine ⟨?_, ?_, fun hfit => ?_⟩
  · have hsub := times_foldl (fun w => (w.orders.filter fun d => d.user == uid).map OrderModel.createdAt)
      (times_orders uid) as .empty
    obtain ⟨ds, hds, hp⟩ := read_orders hs uid
    rw [hds, (listing_orders db uid).eq_reverse hds hp (ht.sublist hsub)]
  · have hsub := times_foldl (fun w => (w.chat o).map ChatModel.sentAt) (times_chat o) as .empty
    obtain ⟨ms, hms, hp⟩ := read_chat hs o
    rw [hms, (listing_chat db o).eq_reverse hms hp (ht.sublist hsub)]
  · have hamounts : AmountsDouble (as.foldl Written.add .empty) :=
      (amountsDouble_foldl as .empty).mpr ⟨fun _ r hr => (nomatch hr), hfit⟩
    have hsub :=
      times_foldl (fun w => (w.transactions uid).map TransactionModel.dueAt) (times_transactions uid) as .empty
    obtain ⟨rs, hrs, hp⟩ := read_transactions hs hamounts uid
    rw [hrs, (listing_transactions db uid).eq_reverse hrs hp (ht.sublist hsub)]

theorem demo_reversed : ∃ db, Runs.run Database.step .empty demoWrites = some db ∧
    let w := demoWrites.foldl Written.add .empty
    streamOrders "u" db = some (w.orders.filter fun d => d.user == "u").reverse ∧
    streamChat "p" db = some (w.chat "p").reverse ∧
    ((∀ a ∈ demoWrites, a.Fits) → streamTransactions "u" db = some (w.transactions "u").reverse) := by
  have h : (Runs.run Database.step .empty demoWrites).isSome := by decide +kernel
  obtain ⟨db, hdb⟩ := Option.isSome_iff_exists.mp h
  exact ⟨db, hdb, lists_reversed hdb (by decide) "u" "p"⟩

end Sayaaratukcom
