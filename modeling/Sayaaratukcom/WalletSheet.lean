import Sayaaratukcom.Readable
import Sayaaratukcom.Session

/-!
# The wallet sheet

The balance that `Balance` and the wallet sheet show is the one in `userProfile`,
as it was when `initUser` read it; the list under it is streamed. A refund changes
the stored balance and the stored records alike, so the two parts of the sheet
agree as long as the refunds in between add up to zero.
-/

namespace Sayaaratukcom

/-- What `streamTransactions` gives of one moment of the store; none when a
record cannot be read. -/
def Store.streamTransactions (st : Store) (uid : String) : Option (List TransactionModel) :=
  (Documents.newestFirst "dueAt" ((st.transactions uid).map TransactionModel.toDoc)).mapM TransactionModel.fromJson

structure WalletSheet where
  balance : ℚ
  uid : String -- whose records are streamed
  since : Store -- the moment at which the profile had been read
  list : Option Store -- the moment of the list; none while it is awaited

structure WalletState where
  store : Store
  past : List Store
  userProfile : UserModel
  loaded : Store -- the moment at which `userProfile` was read
  sheet : Option WalletSheet

inductive WalletEvent where
  | initUser (x : InitInput)
  | refund (t : RefundTask) (now : Timestamp)
  | appUpdate (m : AppUpdate)
  | buildBalance
  | buildWallet
  | snapshot (k : ℕ) -- the stream gives the list of the `k`-th moment from the last
  | closeWallet

namespace WalletState

def moments (s : WalletState) : List Store := s.store :: s.past

def commit (s : WalletState) (st : Store) : WalletState := { s with store := st, past := s.moments }

def start (st : Store) : WalletState := ⟨st, [], emptyProfile, st, none⟩

def initUser (s : WalletState) (user : AuthUser) (x : InitInput) : WalletState :=
  let r := Sayaaratukcom.initUser x (some user) s.store
  match r.userProfile with
  | none => s.commit r.store
  | some userProfile => { s with userProfile, loaded := s.store }.commit r.store

def step (user : AuthUser) (s : WalletState) : WalletEvent → Option WalletState
  | .initUser x => some (s.initUser user x)
  | .refund t now => some (s.commit (s.store.refund t now))
  | .appUpdate m => some (s.commit (m.apply s.store))
  | .buildBalance => if s.userProfile.uid ≠ "" then some s else none
  | .buildWallet =>
    if s.userProfile.uid ≠ "" then
      some { s with
        sheet := some ⟨s.userProfile.balance, s.userProfile.uid, s.loaded, s.sheet.bind (·.list)⟩ }
    else none
  | .snapshot k =>
    match s.sheet, s.moments[k]? with
    | some sheet, some moment => some { s with sheet := some { sheet with list := some moment } }
    | _, _ => none
  | .closeWallet => s.sheet.map fun _ => { s with sheet := none }

def shown (s : WalletState) : WalletEvent → Option ℚ
  | .buildBalance => some s.userProfile.balance
  | .buildWallet | .snapshot _ => s.sheet.map (·.balance)
  | .initUser _ | .refund _ _ | .appUpdate _ | .closeWallet => none

end WalletState

/-! ## What the sheet shows -/

def Store.balance (st : Store) (uid : String) : ℚ := ((st.users uid).map currentBalance).getD 0

def recordSum (records : List TransactionModel) : ℚ := (records.map fun r => r.amount.val).sum

def Store.unrecorded (st : Store) (uid : String) : ℚ := st.balance uid - recordSum (st.transactions uid)

section
variable {uid : String} {st st' : Store}

end

/-! ## Steps -/

/-- Every moment has the same unrecorded balance; what is shown was read at a
moment, and the list is one of a moment. -/
structure WalletInv (user : AuthUser) (s : WalletState) : Prop where
  uids : UidsMatch s.store
  unrecorded : ∀ m ∈ s.moments, m.unrecorded user.uid = s.store.unrecorded user.uid
  loaded : s.loaded ∈ s.moments
  profile : s.userProfile.uid ≠ "" →
    s.userProfile.uid = user.uid ∧ s.userProfile.balance = s.loaded.balance user.uid
  sheet : ∀ sheet ∈ s.sheet, sheet.uid = user.uid ∧ sheet.since ∈ s.moments ∧
    sheet.balance = sheet.since.balance user.uid ∧ ∀ m ∈ sheet.list, m ∈ s.moments

section
variable {user : AuthUser} {s s' : WalletState} {e : WalletEvent} {st : Store}

theorem WalletInv.commit (hi : WalletInv user s) (hm : UidsMatch st)
    (hst : st.unrecorded user.uid = s.store.unrecorded user.uid) : WalletInv user (s.commit st) where
  uids := hm
  unrecorded := by
    intro m hmem
    rcases List.mem_cons.mp hmem with rfl | hmem
    · rfl
    · exact (hi.unrecorded m hmem).trans hst.symm
  loaded := List.mem_cons_of_mem _ hi.loaded
  profile := hi.profile
  sheet := by
    intro sheet hsheet
    obtain ⟨huid, hsince, hbalance, hlist⟩ := hi.sheet sheet hsheet
    exact ⟨huid, List.mem_cons_of_mem _ hsince, hbalance, fun m hmem => List.mem_cons_of_mem _ (hlist m hmem)⟩

end

/-- The records of every moment are among those of the next. -/
def Grows (uid : String) (s : WalletState) : Prop :=
  ∀ m ∈ s.moments, recordSum (m.transactions uid) ≤ recordSum (s.store.transactions uid)

section
variable {user : AuthUser} {uid : String} {s s' : WalletState} {e : WalletEvent} {st : Store}

theorem Grows.commit (h : Grows uid s)
    (hst : recordSum (s.store.transactions uid) ≤ recordSum (st.transactions uid)) : Grows uid (s.commit st) := by
  intro m hm
  rcases List.mem_cons.mp hm with rfl | hm
  · exact le_rfl
  · exact (h m hm).trans hst

end

end Sayaaratukcom
