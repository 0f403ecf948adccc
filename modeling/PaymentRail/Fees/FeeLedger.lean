import PaymentRail.Fees.FeePolicy
import PaymentRail.Machine.Locks

/-!
# FeeLedger — accruals and withdrawals of protocol fees

This module embeds `fees/fee-ledger.service.ts` as a `Service` over the committed rows of
`fee_ledger_entries` and the advisory locks of open transactions.  The calls may come from any number
of instances.

* A statement sees the rows that are committed when it runs.
* `pg_advisory_xact_lock(7001, key)` waits until the key is free, and the lock goes with its
  transaction.
* The row of a withdrawal is seen by others once its transaction has committed.
* The unique index on `settlementId` turns the second accrual of a settlement away.

A statement may fail, and the answer to a commit may be lost although it took effect.
-/

namespace PaymentRail
namespace FeeLedger

open Machine Strings Money Collections

/-! ## Rows -/

abbrev ChainId := Nat

abbrev SettlementId := Nat

abbrev EntryId := Nat

inductive FeeLedgerEntryType where
  | accrual
  | withdrawal
  deriving DecidableEq, Repr

structure FeeLedgerEntry where
  id : EntryId
  chainId : ChainId
  type : FeeLedgerEntryType
  /-- A `decimal(36, 18)` column; the type gives the sign. -/
  amount : Amount
  /-- Set on accruals. -/
  settlementId : Option SettlementId
  /-- Set on withdrawals. -/
  recipient : Option Text
  txHash : Option Text
  note : Option Text
  deriving DecidableEq, Repr

structure Store where
  /-- The committed rows. -/
  entries : List FeeLedgerEntry
  /-- The advisory locks in the namespace of withdrawals, by their second key. -/
  locks : Locks Nat

def Store.empty : Store where
  entries := []
  locks := []

def Store.insert (store : Store) (entry : FeeLedgerEntry) : Store :=
  { store with entries := entry :: store.entries }

/-- The transaction of the call has ended. -/
def Store.unlock (store : Store) (id : CallId) : Store :=
  { store with locks := store.locks.release id }

/-! ## Totals -/

/-- The rows that a total is about. -/
def FeeLedgerEntry.belongs (chainId : ChainId) (type : FeeLedgerEntryType) (entry : FeeLedgerEntry) :
    Bool :=
  entry.chainId = chainId && entry.type = type

/-- The sum of the entries of one type on a chain. -/
def Store.sum (store : Store) (chainId : ChainId) (type : FeeLedgerEntryType) : Int :=
  ((store.entries.filter (FeeLedgerEntry.belongs chainId type)).map (·.amount.wei)).sum

/-- The text of the group's sum; a type without rows has no group. -/
def Store.sumText (store : Store) (chainId : ChainId) (type : FeeLedgerEntryType) : Option Text :=
  if store.entries.any (FeeLedgerEntry.belongs chainId type) = true then
    some (Amount.fromWei (store.sum chainId type)).toFixed
  else
    none

structure Totals where
  accrued : Int
  withdrawn : Int
  deriving DecidableEq, Repr

def totals (store : Store) (chainId : ChainId) : Except String Totals := do
  let accrued ← amountFrom ((store.sumText chainId .accrual).getD ['0'])
  let withdrawn ← amountFrom ((store.sumText chainId .withdrawal).getD ['0'])
  return { accrued := accrued.wei, withdrawn := withdrawn.wei }

structure FeeBalance where
  chainId : ChainId
  accrued : Text
  withdrawn : Text
  available : Text
  deriving DecidableEq, Repr

def toBalance (chainId : ChainId) (totals : Totals) : FeeBalance where
  chainId := chainId
  accrued := (Amount.fromWei totals.accrued).toString
  withdrawn := (Amount.fromWei totals.withdrawn).toString
  available := (Amount.fromWei (totals.accrued - totals.withdrawn)).toString

/-! ## Requests -/

/-- What `accrue` gets of a settlement.  The fee comes from a quote, which is never negative. -/
structure SettledFee where
  id : SettlementId
  feeAmount : Option Text
  nonneg : ∀ fee ∈ feeAmount, ∀ a, amountFrom fee = .ok a → 0 ≤ a.wei
  deriving DecidableEq

structure WithdrawFeesDto where
  amount : Text
  recipient : Text
  chainId : Option ChainId
  txHash : Option Text
  note : Option Text
  deriving DecidableEq, Repr

inductive Request where
  | accrue (settlement : SettledFee) (chainId : Option ChainId)
  | balance (chainId : Option ChainId)
  | withdraw (dto : WithdrawFeesDto)
  deriving DecidableEq

inductive Answer where
  /-- The entry of an accrual, or `null`. -/
  | accrued (entry : Option FeeLedgerEntry)
  | balance (balance : FeeBalance)
  | withdrawn (entry : FeeLedgerEntry) (balance : FeeBalance)
  /-- An exception, with its HTTP status. -/
  | error (status : Nat) (message : String)
  deriving DecidableEq, Repr

inductive Reply where
  | done
  /-- The row is inserted under this id. -/
  | inserted (id : EntryId)
  | uniqueViolation
  | failed (message : String)
  /-- The statement took effect, but its answer did not arrive. -/
  | lost (id : EntryId) (message : String)
  deriving DecidableEq, Repr

structure Config where
  /-- `FeePolicyService.chainId` -/
  chainId : ChainId

/-- The second key of the lock. -/
def lockKey (chainId : ChainId) : Nat := chainId % 2 ^ 31

/-! ## Calls -/

/-- What a call is waiting for. -/
inductive Process where
  | saveAccrual (settlement : SettledFee) (chainId : ChainId) (amount : Amount)
  | balance (chainId : ChainId)
  -- the transaction of `withdraw`
  | begin (dto : WithdrawFeesDto) (chainId : ChainId) (amount : Amount)
  | lock (dto : WithdrawFeesDto) (chainId : ChainId) (amount : Amount)
  | totals (dto : WithdrawFeesDto) (chainId : ChainId) (amount : Amount)
  | save (dto : WithdrawFeesDto) (chainId : ChainId) (amount : Amount) (totals : Totals)
  | commit (entry : FeeLedgerEntry) (balance : FeeBalance)
  | rollback (answer : Answer)
  deriving DecidableEq

def accrual (id : EntryId) (settlement : SettledFee) (chainId : ChainId) (amount : Amount) :
    FeeLedgerEntry where
  id := id
  chainId := chainId
  type := .accrual
  amount := amount
  settlementId := some settlement.id
  recipient := none
  txHash := none
  note := none

def withdrawal (id : EntryId) (dto : WithdrawFeesDto) (chainId : ChainId) (amount : Amount) :
    FeeLedgerEntry where
  id := id
  chainId := chainId
  type := .withdrawal
  amount := amount
  settlementId := none
  recipient := some (toLowerCase dto.recipient)
  txHash := dto.txHash
  note := dto.note

def insufficient (chainId : ChainId) (dto : WithdrawFeesDto) (available : Int) : Answer :=
  .error 409 ("Insufficient accrued fees on chain " ++ toString chainId ++ ": requested " ++
    String.ofList dto.amount ++ ", available " ++ String.ofList (Amount.fromWei available).toString)

def start (cfg : Config) : Request → Store → Store × Flow Process Answer
  | .accrue settlement chainId, store =>
      match settlement.feeAmount with
      | none => (store, .answer (.accrued none))
      | some fee =>
          if fee = [] then (store, .answer (.accrued none))
          else
            match amountFrom fee with
            | .error message => (store, .answer (.error 500 message))
            | .ok amount =>
                if amount.wei = 0 then (store, .answer (.accrued none))
                else (store, .await (.saveAccrual settlement (chainId.getD cfg.chainId) amount))
  | .balance chainId, store => (store, .await (.balance (chainId.getD cfg.chainId)))
  | .withdraw dto, store =>
      match amountFrom dto.amount with
      | .error message => (store, .answer (.error 500 message))
      | .ok amount =>
          if amount.wei ≤ 0 then (store, .answer (.error 400 "amount must be greater than zero"))
          else (store, .await (.begin dto (dto.chainId.getD cfg.chainId) amount))

/-- A committed row has the settlement already. -/
def Store.accrued (store : Store) (id : SettlementId) : Bool :=
  store.entries.any fun entry => entry.settlementId = some id

def resume (id : CallId) : Process → Reply → Store → Option (Store × Flow Process Answer)
  | .saveAccrual settlement chainId amount, .inserted new, store =>
      if store.accrued settlement.id = true then none
      else
        let entry := accrual new settlement chainId amount
        some (store.insert entry, .answer (.accrued (some entry)))
  | .saveAccrual settlement chainId amount, .lost new message, store =>
      if store.accrued settlement.id = true then none
      else some (store.insert (accrual new settlement chainId amount), .answer (.error 500 message))
  | .saveAccrual settlement _ _, .uniqueViolation, store =>
      if store.accrued settlement.id = true then some (store, .answer (.accrued none)) else none
  | .saveAccrual _ _ _, .failed message, store => some (store, .answer (.error 500 message))
  | .balance chainId, .done, store =>
      match totals store chainId with
      | .ok sums => some (store, .answer (.balance (toBalance chainId sums)))
      | .error message => some (store, .answer (.error 500 message))
  | .balance _, .failed message, store => some (store, .answer (.error 500 message))
  | .begin dto chainId amount, .done, store => some (store, .await (.lock dto chainId amount))
  | .begin _ _ _, .failed message, store => some (store, .answer (.error 500 message))
  | .lock dto chainId amount, .done, store =>
      match store.locks.acquire (lockKey chainId) id with
      | some locks => some ({ store with locks }, .await (.totals dto chainId amount))
      | none => none
  | .totals dto chainId amount, .done, store =>
      match totals store chainId with
      | .error message => some (store, .await (.rollback (.error 500 message)))
      | .ok sums =>
          let available := sums.accrued - sums.withdrawn
          if available < amount.wei then
            some (store, .await (.rollback (insufficient chainId dto available)))
          else
            some (store, .await (.save dto chainId amount sums))
  | .save dto chainId amount sums, .inserted new, store =>
      some (store, .await (.commit (withdrawal new dto chainId amount)
        (toBalance chainId { sums with withdrawn := sums.withdrawn + amount.wei })))
  | .commit entry balance, .done, store =>
      some ((store.insert entry).unlock id, .answer (.withdrawn entry balance))
  | .commit entry _, .lost _ message, store =>
      some ((store.insert entry).unlock id, .await (.rollback (.error 500 message)))
  -- the exception goes on once the transaction is rolled back; an error of the rollback is swallowed
  | .rollback answer, .done, store => some (store.unlock id, .answer answer)
  | .rollback answer, .failed _, store => some (store.unlock id, .answer answer)
  | .lock _ _ _, .failed message, store => some (store, .await (.rollback (.error 500 message)))
  | .totals _ _ _, .failed message, store => some (store, .await (.rollback (.error 500 message)))
  | .save _ _ _ _, .failed message, store => some (store, .await (.rollback (.error 500 message)))
  | .commit _ _, .failed message, store => some (store, .await (.rollback (.error 500 message)))
  | _, _, _ => none

/-- All calls on the ledger together. -/
def service (cfg : Config) : Service Store Request Process Reply Answer Empty where
  start := start cfg
  resume := resume
  external := fun e => nomatch e

end FeeLedger
end PaymentRail
