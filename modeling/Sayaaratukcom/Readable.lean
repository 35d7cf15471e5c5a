import Sayaaratukcom.Forms
import Sayaaratukcom.Lib.Runs

/-!
# Reading back what was written

`Database` holds the documents as the writers of the app and of the functions
leave them, field by field, and `Written` says what values they stand for. The
readers give back these values; what they cannot read is a refund whose amount
the Node SDK has stored as an integer.
-/

namespace Sayaaratukcom

open Documents (Doc Value Collection newestFirst)

/-! ## Writers -/

structure Database where
  users : Collection
  transactions : String → Collection
  orders : Collection
  chat : String → Collection

def Database.empty : Database := ⟨.empty, fun _ => .empty, .empty, fun _ => .empty⟩

/-- A write that is carried out; the ids of new documents are those that `doc()`
has made. -/
inductive AppWrite where
  | registerUser (uid phone name email gender : String)
  | sendOrder (id uid : String) (now : Timestamp) (args : OrderArgs)
  | sendMessage (id orderId uid message : String) (now : Timestamp)
  | update (w : Write)
  | appUpdate (m : AppUpdate)
  | refund (id : String) (t : RefundTask) (now : Timestamp)

def Database.updateOrder (db : Database) (o field : String) (v : Value) : Option Database :=
  (db.orders.update o field v).map fun orders => { db with orders }

def Database.step (db : Database) : AppWrite → Option Database
  | .registerUser uid phone name email gender =>
    let user : UserModel := { uid, phone, name, avatarUrl := "", email, gender, balance := 0 }
    some { db with users := db.users.set uid user.toDoc }
  | .sendOrder id uid now args =>
    if (db.orders.get id).isNone then
      some { db with orders := db.orders.set id (newOrder id uid now args).toJson }
    else none
  | .sendMessage id orderId uid message now =>
    if ((db.chat orderId).get id).isNone then
      let messageModel : ChatModel := { user := uid, message, sentAt := now }
      some { db with chat := Function.update db.chat orderId ((db.chat orderId).set id messageModel.toJson) }
    else none
  | .update (.orderStatus o status) => db.updateOrder o "status" (.string status.text)
  | .update (.orderOffer o f) => db.updateOrder o "offerId" (.string f)
  | .update (.offerStatus _ _) => some db -- `offers` has none of these readers
  | .appUpdate m => (db.users.update m.uid m.field.1 m.field.2).map fun users => { db with users }
  | .refund id t now =>
    match db.users.get t.userId with
    | none => none
    | some d =>
      if ((db.transactions t.userId).get id).isNone then
        let newBalance := Num.ofJs (currentBalance (.ofDoc d) + t.offerPrice)
        some { db with
          users := db.users.set t.userId (d.set "balance" newBalance.toValue)
          transactions := Function.update db.transactions t.userId
            ((db.transactions t.userId).set id (refundRecord t now).toDoc) }
      else none

/-! ## Readers -/

def readUser (d : Doc) : Option UserModel := UserModel.ofDoc (.ofDoc d)

def streamOrders (uid : String) (db : Database) : Option (List OrderModel) :=
  (newestFirst "createdAt" (db.orders.docs.filter fun d => d.read "user" Value.asString == some uid)).mapM
    OrderModel.fromJson

def streamChat (orderId : String) (db : Database) : Option (List ChatModel) :=
  (newestFirst "sentAt" (db.chat orderId).docs).mapM ChatModel.fromJson

def streamTransactions (uid : String) (db : Database) : Option (List TransactionModel) :=
  (newestFirst "dueAt" (db.transactions uid).docs).mapM TransactionModel.fromJson

/-! ## What was written -/

structure Written where
  users : String → Option UserModel
  transactions : String → List TransactionModel
  orders : List OrderModel
  chat : String → List ChatModel

def Written.empty : Written := ⟨fun _ => none, fun _ => [], [], fun _ => []⟩

def Written.modifyOrder (w : Written) (o : String) (f : OrderModel → OrderModel) : Written :=
  { w with orders := w.orders.map fun d => if d.id = o then f d else d }

def Written.modifyUser (w : Written) (uid : String) (f : UserModel → UserModel) : Written :=
  { w with users := Function.update w.users uid ((w.users uid).map f) }

/-- The token is in no field of the model. -/
def AppUpdate.onModel : AppUpdate → UserModel → UserModel
  | .fcmToken _ _, user => user
  | .avatarUrl _ url, user => { user with avatarUrl := url }

def UserModel.credit (user : UserModel) (price : ℚ) : UserModel := { user with balance := user.balance + price }

def Written.add (w : Written) : AppWrite → Written
  | .registerUser uid phone name email gender =>
    let user : UserModel := { uid, phone, name, avatarUrl := "", email, gender, balance := 0 }
    { w with users := Function.update w.users uid (some user) }
  | .sendOrder id uid now args => { w with orders := w.orders ++ [newOrder id uid now args] }
  | .sendMessage _ orderId uid message now =>
    { w with chat := Function.update w.chat orderId (w.chat orderId ++ [{ user := uid, message, sentAt := now }]) }
  | .update (.orderStatus o status) => w.modifyOrder o (·.withStatus status)
  | .update (.orderOffer o f) => w.modifyOrder o (·.withOffer f)
  | .update (.offerStatus _ _) => w
  | .appUpdate m => w.modifyUser m.uid m.onModel
  | .refund _ t now =>
    let w' := w.modifyUser t.userId fun user => user.credit t.offerPrice
    { w' with
      transactions := Function.update w.transactions t.userId (w.transactions t.userId ++ [refundRecord t now]) }

/-- Every document is read without an error, as the value that was written, and
each of them once. -/
structure Readable (w : Written) (db : Database) : Prop where
  users : ∀ uid, (db.users.get uid).map readUser = (w.users uid).map some
  orders : ∀ uid, ∃ ds, streamOrders uid db = some ds ∧ ds.Perm (w.orders.filter fun d => d.user == uid)
  chat : ∀ o, ∃ ms, streamChat o db = some ms ∧ ms.Perm (w.chat o)
  transactions : ∀ uid, ∃ rs, streamTransactions uid db = some rs ∧ rs.Perm (w.transactions uid)

/-! ## Documents and values -/

/-- The documents that are stored are those of the values that were written. -/
structure Stores (db : Database) (w : Written) : Prop where
  users : ∀ uid, (db.users.get uid).map readUser = (w.users uid).map some
  orders : Collection.Holds OrderModel.id OrderModel.toJson w.orders db.orders
  chat : ∀ o, (db.chat o).docs = (w.chat o).map ChatModel.toJson
  transactions : ∀ uid, (db.transactions uid).docs = (w.transactions uid).map TransactionModel.toDoc

theorem stores_empty : Stores .empty .empty :=
  ⟨fun _ => rfl, Collection.holds_empty, fun _ => rfl, fun _ => rfl⟩

theorem readUser_toDoc (user : UserModel) : readUser user.toDoc = some user := by
  rw [readUser, UserDoc.ofDoc_toDoc]
  rfl

theorem ofDoc_onUser {user : UserDoc} {model : UserModel} (m : AppUpdate) (h : UserModel.ofDoc user = some model) :
    UserModel.ofDoc (m.onUser user) = some (m.onModel model) := by
  obtain ⟨phone, uid, name, avatarUrl, email, gender, balance, fcmToken⟩ := user
  simp only [UserModel.ofDoc, Option.bind_eq_bind, Option.bind_eq_some_iff] at h
  obtain ⟨_, rfl, _, rfl, _, rfl, _, rfl, _, rfl, _, rfl, _, rfl, h⟩ := h
  obtain rfl := Option.some.inj h
  cases m <;> rfl

theorem ofDoc_credit_model {user : UserDoc} {model : UserModel} (price : ℚ)
    (h : UserModel.ofDoc user = some model) : UserModel.ofDoc (user.credit price) = some (model.credit price) := by
  obtain ⟨phone, uid, name, avatarUrl, email, gender, balance, fcmToken⟩ := user
  simp only [UserModel.ofDoc, Option.bind_eq_bind, Option.bind_eq_some_iff] at h
  obtain ⟨_, rfl, _, rfl, _, rfl, _, rfl, _, rfl, _, rfl, _, rfl, h⟩ := h
  obtain rfl := Option.some.inj h
  simp [UserModel.ofDoc, UserDoc.credit, UserModel.credit, currentBalance]

section
variable {db db' : Database} {w : Written}

theorem users_modify (h : ∀ uid, (db.users.get uid).map readUser = (w.users uid).map some) {uid : String}
    {d d' : Doc} {f : UserModel → UserModel} (hd : db.users.get uid = some d)
    (hf : ∀ m, readUser d = some m → readUser d' = some (f m)) :
    ∀ uid', ((db.users.set uid d').get uid').map readUser = ((w.modifyUser uid f).users uid').map some := by
  intro uid'
  rw [Collection.get_set, Written.modifyUser]
  by_cases hu : uid' = uid
  · subst hu
    have h' := h uid'
    rw [hd] at h'
    obtain ⟨m, hm, hdm⟩ := Option.map_eq_some_iff.mp h'.symm
    simp [hm, hf m hdm.symm]
  · simpa [hu] using h uid'

theorem stores_updateOrder (h : Stores db w) {o field : String} {v : Value} {f : OrderModel → OrderModel}
    (hid : ∀ d, (f d).id = d.id) (hf : ∀ d, d.toJson.set field v = (f d).toJson)
    (hs : db.updateOrder o field v = some db') : Stores db' (w.modifyOrder o f) := by
  obtain ⟨orders, hu, rfl⟩ := Option.map_eq_some_iff.mp hs
  obtain ⟨d, hd, rfl⟩ := Collection.update_eq_some.mp hu
  refine ⟨h.users, ?_, h.chat, h.transactions⟩
  refine h.orders.modify hid hd fun order hmem hkey => ?_
  rw [← hkey, h.orders.get order hmem] at hd
  rw [← Option.some.inj hd, hf]

theorem docs_update_append {α : Type} {enc : α → Doc} {cs : String → Collection} {ws : String → List α}
    (h : ∀ k, (cs k).docs = (ws k).map enc) {k id : String} (hf : (cs k).get id = none) (a : α) :
    ∀ k', (Function.update cs k ((cs k).set id (enc a)) k').docs =
      (Function.update ws k (ws k ++ [a]) k').map enc := by
  intro k'
  by_cases hk : k' = k
  · subst hk
    rw [Function.update_self, Function.update_self, Collection.docs_set_of_fresh hf, h, List.map_append]
    rfl
  · rw [Function.update_of_ne hk, Function.update_of_ne hk, h]

theorem stores_step {a : AppWrite} (h : Stores db w) (hs : db.step a = some db') : Stores db' (w.add a) := by
  cases a with
  | registerUser uid phone name email gender =>
    obtain rfl := Option.some.inj hs
    refine ⟨fun uid' => ?_, h.orders, h.chat, h.transactions⟩
    rw [Collection.get_set, Written.add]
    by_cases hu : uid' = uid
    · subst hu
      simp [readUser_toDoc]
    · simpa [hu] using h.users uid'
  | sendOrder id uid now args =>
    simp only [Database.step] at hs
    split at hs
    · rename_i hf
      obtain rfl := Option.some.inj hs
      have hnew : db.orders.get (newOrder id uid now args).id = none := Option.isNone_iff_eq_none.mp hf
      exact ⟨h.users, h.orders.append hnew, h.chat, h.transactions⟩
    · cases hs
  | sendMessage id orderId uid message now =>
    simp only [Database.step] at hs
    split at hs
    · rename_i hf
      obtain rfl := Option.some.inj hs
      exact ⟨h.users, h.orders, docs_update_append h.chat (Option.isNone_iff_eq_none.mp hf) _, h.transactions⟩
    · cases hs
  | update wr =>
    cases wr with
    | orderStatus o status =>
      exact stores_updateOrder h (fun _ => rfl) (fun d => d.toJson_withStatus status) hs
    | orderOffer o f => exact stores_updateOrder h (fun _ => rfl) (fun d => d.toJson_withOffer f) hs
    | offerStatus f status =>
      obtain rfl := Option.some.inj hs
      exact h
  | appUpdate m =>
    obtain ⟨users, hu, rfl⟩ := Option.map_eq_some_iff.mp hs
    obtain ⟨d, hd, rfl⟩ := Collection.update_eq_some.mp hu
    refine ⟨?_, h.orders, h.chat, h.transactions⟩
    refine users_modify h.users hd fun model hm => ?_
    rw [readUser, UserDoc.ofDoc_set]
    exact ofDoc_onUser m hm
  | refund id t now =>
    simp only [Database.step] at hs
    split at hs
    · cases hs
    · rename_i d hd
      split at hs
      · rename_i hf
        obtain rfl := Option.some.inj hs
        have hfresh := Option.isNone_iff_eq_none.mp hf
        refine ⟨?_, h.orders, h.chat, docs_update_append h.transactions hfresh _⟩
        refine users_modify h.users hd fun m hm => ?_
        rw [readUser, UserDoc.ofDoc_credit]
        exact ofDoc_credit_model _ hm
      · cases hs

end

/-! ## Which amounts can be read -/

/-- A price that is not stored as an integer, when it is one of a refund. -/
def AppWrite.Fits : AppWrite → Prop
  | .refund _ t _ => ¬ (t.offerPrice.den = 1 ∧ |t.offerPrice.num| ≤ 2 ^ 53 - 1)
  | .registerUser _ _ _ _ _ | .sendOrder _ _ _ _ | .sendMessage _ _ _ _ _ | .update _ | .appUpdate _ => True

def AmountsDouble (w : Written) : Prop :=
  ∀ uid, ∀ r ∈ w.transactions uid, ∃ q, r.amount = .double q

theorem ofJs_eq_double (q : ℚ) :
    (∃ q', Num.ofJs q = .double q') ↔ ¬ (q.den = 1 ∧ |q.num| ≤ 2 ^ 53 - 1) := by
  unfold Num.ofJs
  split
  · rename_i h
    exact iff_of_false (by simp) (not_not_intro h)
  · rename_i h
    exact iff_of_true ⟨q, rfl⟩ h

theorem fromJson_isSome (r : TransactionModel) :
    (TransactionModel.fromJson r.toDoc).isSome ↔ ∃ q, r.amount = .double q := by
  obtain ⟨transaction, amount, dueAt⟩ := r
  cases amount with
  | int n => simp [TransactionModel.fromJson, TransactionModel.toDoc, Doc.read, Num.toValue, Value.asDouble]
  | double q => simp [TransactionModel.fromJson_toDoc]

theorem amountsDouble_add (w : Written) (a : AppWrite) : AmountsDouble (w.add a) ↔ AmountsDouble w ∧ a.Fits := by
  cases a with
  | refund id t now =>
    rw [AppWrite.Fits, ← ofJs_eq_double]
    constructor
    · intro h
      refine ⟨fun uid r hr => ?_, ?_⟩
      · refine h uid r ?_
        by_cases hu : uid = t.userId
        · subst hu
          simp [Written.add, hr]
        · simpa [Written.add, hu] using hr
      · exact h t.userId (refundRecord t now) (by simp [Written.add])
    · intro h uid r hr
      obtain ⟨hw, hq⟩ := h
      by_cases hu : uid = t.userId
      · subst hu
        simp only [Written.add, Function.update_self, List.mem_append, List.mem_singleton] at hr
        rcases hr with hr | rfl
        · exact hw _ r hr
        · exact hq
      · exact hw uid r (by simpa [Written.add, hu] using hr)
  | update wr => cases wr <;> exact (and_iff_left trivial).symm
  | _ => exact (and_iff_left trivial).symm

theorem amountsDouble_foldl (as : List AppWrite) : ∀ w : Written,
    AmountsDouble (as.foldl Written.add w) ↔ AmountsDouble w ∧ ∀ a ∈ as, a.Fits := by
  induction as with
  | nil => simp
  | cons a as ih =>
    intro w
    rw [List.foldl_cons, ih, amountsDouble_add, List.forall_mem_cons, and_assoc]

section
variable {db : Database} {w : Written}

theorem read_orders (h : Stores db w) (uid : String) :
    ∃ ds, streamOrders uid db = some ds ∧ ds.Perm (w.orders.filter fun d => d.user == uid) := by
  have hdocs : (db.orders.docs.filter fun d => d.read "user" Value.asString == some uid) =
      (w.orders.filter fun d => d.user == uid).map OrderModel.toJson := by
    rw [h.orders.docs, List.filter_map]
    rfl
  rw [streamOrders, hdocs]
  exact Documents.read_newestFirst (fun d _ => d.fromJson_toJson) fun d _ => rfl

theorem read_chat (h : Stores db w) (o : String) : ∃ ms, streamChat o db = some ms ∧ ms.Perm (w.chat o) := by
  rw [streamChat, h.chat]
  exact Documents.read_newestFirst (fun m _ => m.fromJson_toJson) fun m _ => rfl

theorem read_transactions (h : Stores db w) (hw : AmountsDouble w) (uid : String) :
    ∃ rs, streamTransactions uid db = some rs ∧ rs.Perm (w.transactions uid) := by
  rw [streamTransactions, h.transactions]
  refine Documents.read_newestFirst (fun r hr => ?_) fun r _ => rfl
  obtain ⟨transaction, amount, dueAt⟩ := r
  obtain ⟨q, rfl⟩ := hw uid _ hr
  exact TransactionModel.fromJson_toDoc transaction q dueAt

theorem readable_iff (h : Stores db w) : Readable w db ↔ AmountsDouble w := by
  constructor
  · intro hr uid r hmem
    obtain ⟨rs, hrs, -⟩ := hr.transactions uid
    rw [streamTransactions, h.transactions] at hrs
    refine (fromJson_isSome r).mp (Documents.isSome_of_mapM hrs _ ?_)
    exact Documents.mem_newestFirst.mpr ⟨List.mem_map_of_mem hmem, rfl⟩
  · intro hw
    exact ⟨h.users, read_orders h, read_chat h, read_transactions h hw⟩

end

/-- After any sequence of writes every document is read as it was written,
exactly if no refund had a price that is stored as an integer. -/
theorem written_readable_iff {as : List AppWrite} {db : Database}
    (h : Runs.run Database.step .empty as = some db) :
    Readable (as.foldl Written.add .empty) db ↔ ∀ a ∈ as, a.Fits := by
  have hs : Stores db (as.foldl Written.add .empty) :=
    Runs.run_foldl (f := Written.add) (fun _ _ _ _ h0 hs => stores_step h0 hs) stores_empty h
  rw [readable_iff hs, amountsDouble_foldl]
  simp [AmountsDouble, Written.empty]

/-- A user is registered, has a refund of 99.5 riyals, and sends an order. -/
def demoWrites : List AppWrite :=
  [.registerUser "u" "+966500000000" "مستخدم" "" "ذكر", .refund "t" ⟨"o", "u", 199 / 2⟩ 9,
   .sendOrder "p" "u" 10 demoArgs, .update (.orderStatus "p" .cancelled)]

theorem demo_readable : ∃ db, Runs.run Database.step .empty demoWrites = some db ∧
    (Readable (demoWrites.foldl Written.add .empty) db ↔ ∀ a ∈ demoWrites, a.Fits) := by
  have h : (Runs.run Database.step .empty demoWrites).isSome := by decide +kernel
  obtain ⟨db, hdb⟩ := Option.isSome_iff_exists.mp h
  exact ⟨db, hdb, written_readable_iff hdb⟩

/-- A refund of 100 riyals: the list of transactions is not read. -/
theorem whole_refund_unreadable : ∃ db, Runs.run Database.step .empty
      [.registerUser "u" "+966500000000" "مستخدم" "" "ذكر", .refund "t" ⟨"o", "u", 100⟩ 9] = some db ∧
    streamTransactions "u" db = none ∧
    ¬ Readable ([AppWrite.registerUser "u" "+966500000000" "مستخدم" "" "ذكر",
      .refund "t" ⟨"o", "u", 100⟩ 9].foldl Written.add .empty) db := by
  have h : (Runs.run Database.step .empty
      [.registerUser "u" "+966500000000" "مستخدم" "" "ذكر", .refund "t" ⟨"o", "u", 100⟩ 9]).map
        (streamTransactions "u") = some none := by decide +kernel
  obtain ⟨db, hdb, hnone⟩ := Option.map_eq_some_iff.mp h
  refine ⟨db, hdb, hnone, fun hr => ?_⟩
  obtain ⟨rs, hrs, -⟩ := hr.transactions "u"
  rw [hnone] at hrs
  cases hrs

end Sayaaratukcom
