import PaymentRail.Collections.Arrange
import PaymentRail.Machine.Calls
import PaymentRail.Money.Amount
import PaymentRail.Settlement.Transactions

/-!
# EscrowSession — the escrow tables and the statements that change them

The rows of `escrow_sessions`, `escrow_releases` and `stream_claims`, what is known of the chain,
and each SQL statement the escrow services issue as one atomic operation on the store:

* `Store.save` — `repository.save(entity)`, which writes the loaded entity over the row;
* `Store.reserve` — the conditional UPDATE that moves `releasedAmount`;
* `Store.expireDue`, `Store.markRefunded`, `Store.findAwaitingRefund`;
* `toBalance` — what can still be released.

A `decimal(36, 18)` column holds an `Amount` exactly and is read back as the text `toFixed`.
-/

namespace PaymentRail
namespace Escrow

open Machine Strings Money Collections Collections.Arrange
open Settlement (Fate)

/-! ## Rows -/

/-- Row ids and transaction hashes are only compared and printed. -/
abbrev SessionId := Nat

abbrev ReleaseId := Nat

abbrev TxHash := Nat

/-- Microseconds, the resolution of a Postgres timestamp. -/
abbrev Time := Nat

inductive EscrowStatus where
  | «open»
  | settling
  | closed
  | disputed
  | expired
  | cancelled
  deriving DecidableEq, Repr

/-- The value of the enumeration, as it stands in messages. -/
def EscrowStatus.text : EscrowStatus → String
  | .open => "open"
  | .settling => "settling"
  | .closed => "closed"
  | .disputed => "disputed"
  | .expired => "expired"
  | .cancelled => "cancelled"

structure EscrowSession where
  id : SessionId
  agentA : Text
  agentB : Text
  depositAmount : Amount
  budgetLimit : Amount
  releasedAmount : Amount
  verificationRequired : Bool
  status : EscrowStatus
  /-- Seconds. -/
  ttl : Nat
  createdAt : Time
  closedAt : Option Time
  refundedAt : Option Time
  deriving DecidableEq, Repr

inductive ReleaseStatus where
  | completed
  | failed
  deriving DecidableEq, Repr

structure EscrowRelease where
  id : ReleaseId
  escrowId : SessionId
  amount : Amount
  status : ReleaseStatus
  note : Option Text
  txHash : Option TxHash
  lastError : Option String
  deriving DecidableEq, Repr

structure StreamClaim where
  escrowId : SessionId
  usageDelta : Amount
  cumulativeAmount : Amount
  deriving DecidableEq, Repr

/-! ## The chain -/

/-- The hub functions the escrow services call; the session id stands for its hash. -/
inductive HubCall where
  | openEscrow (escrowId : SessionId) (agentB : Text) (budgetWei : Int)
      (verificationRequired : Bool) (ttl : Nat) (depositWei : Int)
  | closeEscrow (escrowId : SessionId)
  /-- The release id stands in for the receipts hash. -/
  | settleBatch (escrowId : SessionId) (releaseId : ReleaseId) (amountWei : Int)
  deriving DecidableEq, Repr

/-- The release a call to the hub pays out, with its session and amount. -/
def HubCall.payout? : HubCall → Option (SessionId × ReleaseId × Int)
  | .settleBatch escrowId releaseId amountWei => some (escrowId, releaseId, amountWei)
  | _ => none

structure Transaction where
  hash : TxHash
  call : HubCall
  fate : Fate
  deriving DecidableEq, Repr

/-! ## The store -/

structure Store where
  sessions : List EscrowSession
  releases : List EscrowRelease
  /-- In the order of `claimedAt`, the latest first. -/
  claims : List StreamClaim
  transactions : List Transaction
  /-- Advisory locks, with the call whose transaction holds them. -/
  locks : List (Nat × CallId)
  now : Time
  /-- The reason of the pause, or `none` while nothing is paused. -/
  settlementPaused : Option String
  streamingPaused : Option String
  deriving DecidableEq, Repr

namespace Store

def empty : Store where
  sessions := []
  releases := []
  claims := []
  transactions := []
  locks := []
  now := 0
  settlementPaused := none
  streamingPaused := none

/-- `new Date()`, in whole milliseconds. -/
def date (store : Store) : Time := store.now / 1000 * 1000

def find (store : Store) (id : SessionId) : Option EscrowSession :=
  Table.lookup EscrowSession.id store.sessions id

def save (store : Store) (entity : EscrowSession) : Store :=
  { store with sessions := Table.put EscrowSession.id store.sessions entity }

def saveRelease (store : Store) (entity : EscrowRelease) : Store :=
  { store with releases := Table.put EscrowRelease.id store.releases entity }

def broadcast (store : Store) (tx : Transaction) : Store :=
  { store with transactions := Table.put Transaction.hash store.transactions tx }

def lock (store : Store) (key : Nat) (holder : CallId) : Store :=
  { store with locks := Table.put Prod.fst store.locks (key, holder) }

/-- The transaction that holds the lock has ended. -/
def unlock (store : Store) (key : Nat) : Store :=
  { store with locks := Table.drop Prod.fst store.locks key }

def fateOf (store : Store) (hash : TxHash) : Fate :=
  match Table.lookup Transaction.hash store.transactions hash with
  | some tx => tx.fate
  | none => .dropped

end Store

/-- `LEAST("depositAmount", "budgetLimit")` -/
def EscrowSession.least (session : EscrowSession) : Int :=
  min session.depositAmount.wei session.budgetLimit.wei

/-- The WHERE clause of the conditional UPDATE. -/
def EscrowSession.reservable (session : EscrowSession) (delta : Int) : Bool :=
  session.status = .open ∧ 0 ≤ session.releasedAmount.wei + delta ∧
    session.releasedAmount.wei + delta ≤ session.least

/-- Adds `delta`, which may be negative, to `releasedAmount`; `none` when no row changed. -/
def Store.reserve (store : Store) (escrowId : SessionId) (delta : Int) : Option Store :=
  match store.find escrowId with
  | none => none
  | some session =>
      if session.reservable delta = true then
        some (store.save { session with releasedAmount := ⟨session.releasedAmount.wei + delta⟩ })
      else
        none

/-- The TTL of an open session has run out. -/
def EscrowSession.due (session : EscrowSession) (now : Time) : Bool :=
  session.status = .open ∧ session.createdAt + session.ttl * 1000000 ≤ now

def EscrowSession.expire (now : Time) (session : EscrowSession) : EscrowSession :=
  if session.due now = true then { session with status := .expired, closedAt := some now } else session

namespace Store

def expireDue (store : Store) (now : Time) : Store :=
  { store with sessions := store.sessions.map (EscrowSession.expire now) }

/-- One row under `update({ id }, { refundedAt })`. -/
def refundedRow (id : SessionId) (refundedAt : Time) (session : EscrowSession) : EscrowSession :=
  if session.id = id then { session with refundedAt := some refundedAt } else session

def markRefunded (store : Store) (id : SessionId) (refundedAt : Time) : Store :=
  { store with sessions := store.sessions.map (refundedRow id refundedAt) }

end Store

/-- The WHERE clause of `findAwaitingRefund`. -/
def EscrowSession.awaitingRefund (session : EscrowSession) : Bool :=
  (session.status = .expired || session.status = .cancelled) && session.refundedAt = none

/-- Both statuses are written together with `closedAt`, so the order has no nulls to place. -/
def Store.findAwaitingRefund (store : Store) (limit : Nat) : List EscrowSession :=
  (orderBy (fun session => session.closedAt.getD 0)
    (store.sessions.filter EscrowSession.awaitingRefund)).take limit

/-! ## Balances -/

structure EscrowBalance where
  escrowId : SessionId
  status : EscrowStatus
  depositAmount : Text
  budgetLimit : Text
  releasedAmount : Text
  remainingBalance : Text
  deriving DecidableEq, Repr

def toBalance (session : EscrowSession) : Except String EscrowBalance := do
  let deposit ← amountFrom session.depositAmount.toFixed
  let budget ← amountFrom session.budgetLimit.toFixed
  let released ← amountFrom session.releasedAmount.toFixed
  return { escrowId := session.id
           status := session.status
           depositAmount := deposit.toString
           budgetLimit := budget.toString
           releasedAmount := released.toString
           remainingBalance := ((Amount.min deposit budget).minusFloored released).toString }

/-- What a balance says, in numbers. -/
structure EscrowBalance.Reports (balance : EscrowBalance) (session : EscrowSession) : Prop where
  escrowId : balance.escrowId = session.id
  status : balance.status = session.status
  depositAmount : amountFrom balance.depositAmount = .ok session.depositAmount
  budgetLimit : amountFrom balance.budgetLimit = .ok session.budgetLimit
  releasedAmount : amountFrom balance.releasedAmount = .ok session.releasedAmount
  remainingBalance :
    amountFrom balance.remainingBalance = .ok ⟨max (session.least - session.releasedAmount.wei) 0⟩

theorem toBalance_reports (session : EscrowSession) :
    ∃ balance, toBalance session = .ok balance ∧ balance.Reports session := by
  refine ⟨_, by simp only [toBalance, Amount.amountFrom_toFixed, ok_bind]; rfl, ?_⟩
  have hremaining : ((Amount.min session.depositAmount session.budgetLimit).minusFloored
      session.releasedAmount) = ⟨max (session.least - session.releasedAmount.wei) 0⟩ := by
    rw [Amount.mk.injEq, Amount.wei_minusFloored, Amount.wei_min, EscrowSession.least]
  exact
    { escrowId := rfl
      status := rfl
      depositAmount := Amount.amountFrom_toString _
      budgetLimit := Amount.amountFrom_toString _
      releasedAmount := Amount.amountFrom_toString _
      remainingBalance := by rw [Amount.amountFrom_toString, hremaining] }

/-! ## Reading back what was written -/

namespace Store

variable {store store' : Store} {id : SessionId} {entity session : EscrowSession}

@[simp] theorem find_save_self : (store.save entity).find entity.id = some entity :=
  Table.lookup_put_self _ _

theorem find_save_of_ne (h : entity.id ≠ id) : (store.save entity).find id = store.find id :=
  Table.lookup_put_of_ne _ _ h

theorem id_of_find (h : store.find id = some session) : session.id = id :=
  Table.key_of_lookup h

theorem mem_of_find (h : store.find id = some session) : session ∈ store.sessions :=
  Table.mem_of_lookup h

/-- Only an open session expires, and only its status and `closedAt` are written. -/
theorem expire_cases (now : Time) (session : EscrowSession) :
    session.expire now = session ∨ (session.status = .open ∧
      session.expire now = { session with status := .expired, closedAt := some now }) := by
  by_cases hdue : session.due now = true
  · have hopen : session.status = .open ∧ session.createdAt + session.ttl * 1000000 ≤ now :=
      of_decide_eq_true hdue
    exact Or.inr ⟨hopen.1, if_pos hdue⟩
  · exact Or.inl (if_neg hdue)

theorem id_expire (now : Time) (session : EscrowSession) : (session.expire now).id = session.id := by
  rcases expire_cases now session with h | ⟨_, h⟩
  · rw [h]
  · rw [h]

theorem find_expireDue (now : Time) :
    (store.expireDue now).find id = (store.find id).map (EscrowSession.expire now) :=
  Table.lookup_map (id_expire now)

/-- Of one session only `refundedAt` is written. -/
theorem refundedRow_cases (id : SessionId) (refundedAt : Time) (session : EscrowSession) :
    (session.id ≠ id ∧ refundedRow id refundedAt session = session) ∨ (session.id = id ∧
      refundedRow id refundedAt session = { session with refundedAt := some refundedAt }) := by
  by_cases hid : session.id = id
  · exact Or.inr ⟨hid, if_pos hid⟩
  · exact Or.inl ⟨hid, if_neg hid⟩

theorem id_refundedRow (refundedAt : Time) (session : EscrowSession) :
    (refundedRow id refundedAt session).id = session.id := by
  rcases refundedRow_cases id refundedAt session with ⟨_, h⟩ | ⟨_, h⟩
  · rw [h]
  · rw [h]

theorem find_markRefunded (k : SessionId) (refundedAt : Time) :
    (store.markRefunded id refundedAt).find k = (store.find k).map (refundedRow id refundedAt) :=
  Table.lookup_map (id_refundedRow refundedAt)

/-- What an accepted reservation has found and written. -/
theorem reserve_eq_some {delta : Int} (h : store.reserve id delta = some store') :
    ∃ session, store.find id = some session ∧ session.reservable delta = true ∧
      store' = store.save { session with
        releasedAmount := ⟨session.releasedAmount.wei + delta⟩ } := by
  simp only [reserve] at h
  split at h
  · cases h
  · rename_i session hfind
    split at h
    · rename_i hok
      cases h
      exact ⟨session, hfind, hok, rfl⟩
    · cases h

end Store

end Escrow
end PaymentRail
