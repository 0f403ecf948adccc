import Mathlib.Data.List.Sort
import PaymentRail.Collections.Table
import PaymentRail.Fees.FeePolicy
import PaymentRail.Machine.Run
import PaymentRail.Strings.CodeUnits

/-!
# SettlementService — settlements, their attempts and the retry queue

This module embeds `settlement/settlement.service.ts` and `settlement/settlement-retry.service.ts`
as a machine whose steps are the pieces of code between two awaits.  A call of `settleBatch`,
`processDue` or `replay` is a process; while it waits, any other process may take a step, and the
chain may move on.

What the outside world answers is part of the action (`Reply`): a storage operation is done or
fails, a provider call answers truthfully from the chain or fails, a transaction is broadcast or
refused.  A storage operation that fails has not been applied, and a call that is refused has
broadcast nothing.  The chain keeps every transaction ever broadcast, with the settlement it was sent
for.
-/

namespace PaymentRail
namespace Settlement

open Machine Strings Money Fees Collections

/-! ## Rows -/

/-- Row ids and transaction hashes are only compared. -/
abbrev SettlementId := Nat

abbrev TxHash := Nat

/-- Milliseconds. -/
abbrev Time := Nat

inductive SettlementStatus where
  | pending
  | settled
  | rejected
  | retrying
  | deadLetter
  deriving DecidableEq, Repr

structure SettlementRow where
  id : SettlementId
  escrowId : Text
  receiptsHash : Text
  totalAmount : Text
  feeAmount : Option Text
  status : SettlementStatus
  receiptCount : Option Nat
  packedReceipts : Option Text
  attempts : Nat
  nextRetryAt : Option Time
  lastError : Option String
  txHash : Option TxHash
  settledAt : Option Time
  deriving DecidableEq, Repr

/-- What a `decimal(36, 18)` column gives back for a decimal text. -/
def decimalColumn (text : Text) : Text :=
  match amountFrom text with
  | .ok a => a.toFixed
  | .error _ => text

/-- An entity as its row is read later. -/
def SettlementRow.stored (entity : SettlementRow) : SettlementRow :=
  { entity with
    totalAmount := decimalColumn entity.totalAmount
    feeAmount := entity.feeAmount.map decimalColumn }

/-! ## The chain -/

inductive Fate where
  | pending
  | mined (depth : Nat)
  | reverted
  | dropped
  deriving DecidableEq, Repr

/-- A transaction in the mempool is mined, reverted or dropped; a mined one is buried deeper; a
reverted or dropped one stays what it is. -/
def Fate.canBecome : Fate → Fate → Bool
  | .pending, _ => true
  | .mined depth, .mined depth' => depth ≤ depth'
  | .reverted, .reverted => true
  | .dropped, .dropped => true
  | _, _ => false

/-- A call of `EscrowHub.settleBatch` that was broadcast. -/
structure Transaction where
  hash : TxHash
  settlementId : SettlementId
  amountWei : Int
  fate : Fate
  deriving DecidableEq, Repr

/-- What a truthful provider knows about a hash: neither a receipt nor a transaction for one that
was never seen or was dropped. -/
def fateOf (transactions : List Transaction) (hash : Option TxHash) : Fate :=
  match hash with
  | none => .dropped
  | some h =>
      match Table.lookup Transaction.hash transactions h with
      | some tx => tx.fate
      | none => .dropped

/-! ## The store -/

inductive WebhookEvent where
  | settlementSettled
  | settlementFailed
  deriving DecidableEq, Repr

structure Store where
  settlements : List SettlementRow
  transactions : List Transaction
  /-- Fee accruals, with the unique settlement they belong to. -/
  accruals : List (SettlementId × Text)
  emitted : List (WebhookEvent × SettlementId)

def Store.find (store : Store) (id : SettlementId) : Option SettlementRow :=
  Table.lookup SettlementRow.id store.settlements id

def Store.save (store : Store) (entity : SettlementRow) : Store :=
  { store with settlements := Table.put SettlementRow.id store.settlements entity.stored }

def Store.broadcast (store : Store) (tx : Transaction) : Store :=
  { store with transactions := Table.put Transaction.hash store.transactions tx }

/-- `FeeLedgerService.accrue`: nothing for a zero fee, and one entry for a settlement at most. -/
def Store.accrue (store : Store) (entity : SettlementRow) : Store :=
  match entity.feeAmount with
  | none => store
  | some fee =>
      match amountFrom fee with
      | .error _ => store
      | .ok a =>
          -- the unique column turns a second accrual of a settlement away
          if a.wei = 0 ∨ store.accruals.any (fun entry => entry.1 = entity.id) = true then store
          else { store with accruals := (entity.id, fee) :: store.accruals }

/-- Only final outcomes are announced. -/
def Store.emitOutcome (store : Store) (entity : SettlementRow) : Store :=
  match entity.status with
  | .settled => { store with emitted := (.settlementSettled, entity.id) :: store.emitted }
  | .rejected | .deadLetter =>
      { store with emitted := (.settlementFailed, entity.id) :: store.emitted }
  | _ => store

/-! ## Configuration -/

structure Config where
  /-- `ESCROW_HUB_ADDRESS` is set. -/
  hubConfigured : Bool
  maxAttempts : Nat
  baseDelayMs : Nat
  maxDelayMs : Nat
  batchSize : Nat
  confirmations : Nat
  maxFeePerGasWei : Nat
  policy : FeePolicy

/-- Delay before the next attempt: base, twice the base and so on, up to the maximum. -/
def Config.backoffMs (cfg : Config) (attempts : Nat) : Nat :=
  min (cfg.baseDelayMs * 2 ^ min (attempts - 1) 30) cfg.maxDelayMs

/-! ## One attempt -/

/-- An error that reaches the catch block of `attempt`. -/
structure Failure where
  code : String
  message : String
  deriving DecidableEq, Repr

/-- `NON_RETRYABLE_CODES` -/
def nonRetryableCodes : List String := ["CALL_EXCEPTION", "INVALID_ARGUMENT", "UNSUPPORTED_OPERATION"]

/-- The call an attempt is waiting for. -/
inductive Stage where
  | getTransactionReceipt
  | confirmations
  | getTransaction
  | savePending
  | assertGasWithinCap
  | sendTransaction (amountWei : Int)
  | saveHash
  | waitFor
  | accrueFee
  | saveOutcome
  deriving DecidableEq, Repr

/-- What a waiting process is answered. -/
inductive Reply where
  | done
  | gas (fee : Option Nat)
  | sent (hash : TxHash)
  | failed (error : Failure)
  deriving DecidableEq, Repr

/-- How an attempt goes on after an answer. -/
inductive Flow where
  | await (entity : SettlementRow) (stage : Stage)
  | returned
  | thrown (error : Failure)

/-- The status and the next attempt after an error. -/
def failureOutcome (cfg : Config) (now : Time) (attempts : Nat) (error : Failure) :
    SettlementStatus × Option Time :=
  if nonRetryableCodes.contains error.code then (.rejected, none)
  else if cfg.maxAttempts ≤ attempts then (.deadLetter, none)
  else (.retrying, some (now + cfg.backoffMs attempts))

/-- The catch block of `attempt`. -/
def recordFailure (cfg : Config) (now : Time) (entity : SettlementRow) (error : Failure) :
    SettlementRow :=
  { entity with
    lastError := some (String.ofList (Strings.slicePrefix 500 error.message.toList))
    status := (failureOutcome cfg now entity.attempts error).1
    nextRetryAt := (failureOutcome cfg now entity.attempts error).2 }

/-- The earlier transaction is still pending: wait, without using up an attempt. -/
def keepWaiting (cfg : Config) (now : Time) (entity : SettlementRow) : SettlementRow :=
  { entity with
    attempts := entity.attempts - 1
    status := .retrying
    nextRetryAt := some (now + cfg.baseDelayMs) }

def markPaid (now : Time) (entity : SettlementRow) : SettlementRow :=
  { entity with status := .settled, settledAt := some now, nextRetryAt := none, lastError := none }

/-- The beginning of `attempt`, up to its first wait.  Without a transaction hash there is nothing
to confirm. -/
def startAttempt (entity : SettlementRow) : SettlementRow × Stage :=
  let entity := { entity with attempts := entity.attempts + 1 }
  match entity.txHash with
  | none => (entity, .assertGasWithinCap)
  | some _ => (entity, .getTransactionReceipt)

/-- `assertGasWithinCap`; a cap of zero means none. -/
def gasFailure (cfg : Config) (fee : Option Nat) : Option Failure :=
  match fee with
  | none => none
  | some current =>
      if cfg.maxFeePerGasWei ≠ 0 ∧ cfg.maxFeePerGasWei < current then
        some { code := "GAS_PRICE_ABOVE_CAP"
               message := "Network fee " ++ toString (current / 10 ^ 9) ++
                 " gwei is above the cap of " ++ toString (cfg.maxFeePerGasWei / 10 ^ 9) ++ " gwei" }
      else
        none

def attemptStep (cfg : Config) (now : Time) (entity : SettlementRow) (stage : Stage) (reply : Reply)
    (store : Store) : Option (Store × Flow) :=
  let fail := fun error : Failure =>
    some (store, Flow.await (recordFailure cfg now entity error) .saveOutcome)
  match stage, reply with
  -- `confirmEarlierTransaction`
  | .getTransactionReceipt, .done =>
      match fateOf store.transactions entity.txHash with
      | .mined _ => some (store, .await entity .confirmations)
      -- mined and reverted: safe to send again
      | .reverted => some (store, .await entity .assertGasWithinCap)
      | _ => some (store, .await entity .getTransaction)
  | .confirmations, .done =>
      match fateOf store.transactions entity.txHash with
      | .mined depth =>
          -- mined is not final before it is buried deep enough
          if cfg.confirmations ≤ depth then some (store, .await (markPaid now entity) .accrueFee)
          else some (store, .await (keepWaiting cfg now entity) .savePending)
      | _ => none
  | .getTransaction, .done =>
      match fateOf store.transactions entity.txHash with
      | .dropped => some (store, .await entity .assertGasWithinCap)
      | _ => some (store, .await (keepWaiting cfg now entity) .savePending)
  | .savePending, .done => some (store.save entity, .returned)
  -- `send`
  | .assertGasWithinCap, .gas fee =>
      match gasFailure cfg fee with
      | some error => fail error
      | none =>
          match amountFrom entity.totalAmount with
          | .error message => fail { code := "", message }
          | .ok a => some (store, .await entity (.sendTransaction a.wei))
  | .sendTransaction amountWei, .sent hash =>
      -- the hash of a new transaction is new
      if Table.lookup Transaction.hash store.transactions hash = none then
        some (store.broadcast { hash, settlementId := entity.id, amountWei, fate := .pending },
          .await { entity with txHash := some hash } .saveHash)
      else
        none
  | .saveHash, .done => some (store.save entity, .await entity .waitFor)
  -- `waitFor` resolves with the receipt of a transaction that is buried deep enough
  | .waitFor, .done =>
      match fateOf store.transactions entity.txHash with
      | .mined depth =>
          if cfg.confirmations ≤ depth then some (store, .await (markPaid now entity) .accrueFee)
          else none
      | _ => none
  | .accrueFee, .done => some (store.accrue entity, .await entity .saveOutcome)
  -- the payout already happened: a failing ledger is only logged
  | .accrueFee, .failed _ => some (store, .await entity .saveOutcome)
  | .saveOutcome, .done => some ((store.save entity).emitOutcome entity, .returned)
  -- this save stands after the try block, so its error leaves `attempt`
  | .saveOutcome, .failed error => some (store, .thrown error)
  -- every other wait stands inside the try block
  | _, .failed error => fail error
  | _, _ => none

/-! ## Processes -/

/-- Who called `attempt`; a tick still has the rest of its due settlements to do. -/
inductive Caller where
  | settleBatch
  | processDue (rest : List SettlementRow)
  | replay
  deriving DecidableEq, Repr

inductive Process where
  /-- `settleBatch` saving its new row. -/
  | insert (entity : SettlementRow)
  /-- `replay` reading its row. -/
  | findById (id : SettlementId)
  /-- `processDue` reading the rows that are due. -/
  | findDueRetries (now : Time)
  | attempt (caller : Caller) (now : Time) (entity : SettlementRow) (stage : Stage)
  deriving DecidableEq, Repr

abbrev Pid := Nat

structure State where
  store : Store
  processes : List (Pid × Process)
  /-- `SettlementRetryService.running` -/
  running : Bool
  /-- `isPaused(SETTLEMENT)` -/
  paused : Bool

def initial : State where
  store := { settlements := [], transactions := [], accruals := [], emitted := [] }
  processes := []
  running := false
  paused := false

structure SettleBatchInput where
  escrowId : Text
  receiptsHash : Text
  totalAmount : Text
  receiptCount : Option Nat
  packedReceipts : Option Text
  deriving DecidableEq, Repr

inductive Action where
  | settleBatch (pid : Pid) (id : SettlementId) (input : SettleBatchInput)
  | processDue (pid : Pid) (now : Time)
  | replay (pid : Pid) (id : SettlementId)
  | resume (pid : Pid) (now : Time) (reply : Reply)
  | evolve (hash : TxHash) (fate : Fate)
  | setPaused (paused : Bool)
  deriving DecidableEq, Repr

/-- The process an action is about; the chain and the pause switch belong to none. -/
def Action.pid : Action → Option Pid
  | .settleBatch pid _ _ => some pid
  | .processDue pid _ => some pid
  | .replay pid _ => some pid
  | .resume pid _ _ => some pid
  | .evolve _ _ => none
  | .setPaused _ => none

def State.process (s : State) (pid : Pid) : Option Process :=
  (Table.lookup Prod.fst s.processes pid).map Prod.snd

def State.spawn (s : State) (pid : Pid) (p : Process) : State :=
  { s with processes := Table.put Prod.fst s.processes (pid, p) }

def State.exit (s : State) (pid : Pid) : State :=
  { s with processes := Table.drop Prod.fst s.processes pid }

/-- Start the next attempt of a tick, or end the tick. -/
def State.nextDue (s : State) (pid : Pid) (now : Time) : List SettlementRow → State
  | [] => { s.exit pid with running := false }
  | entity :: rest =>
      s.spawn pid (.attempt (.processDue rest) now (startAttempt entity).1 (startAttempt entity).2)

/-- Go on with a process after its attempt has taken a step. -/
def State.proceed (s : State) (pid : Pid) (caller : Caller) (now : Time) : Flow → State
  | .await entity stage => s.spawn pid (.attempt caller now entity stage)
  | .returned =>
      match caller with
      | .processDue rest => s.nextDue pid now rest
      | _ => s.exit pid
  | .thrown _ =>
      match caller with
      -- the loop is left and `finally` runs; the rest of the due rows waits for the next tick
      | .processDue _ => { s.exit pid with running := false }
      | _ => s.exit pid

def isDue (now : Time) (row : SettlementRow) : Bool :=
  row.status = .retrying && row.nextRetryAt.any fun t => t ≤ now

def findDueRetries (store : Store) (now : Time) (limit : Nat) : List SettlementRow :=
  ((store.settlements.filter (isDue now)).insertionSort
    fun a b => a.nextRetryAt.getD 0 ≤ b.nextRetryAt.getD 0).take limit

/-- The part of `settleBatch` before its first wait; it throws on an amount without a fee quote. -/
def newSettlement (cfg : Config) (id : SettlementId) (input : SettleBatchInput) :
    Except String SettlementRow := do
  let quoted ← quote cfg.policy input.totalAmount
  return { id, escrowId := input.escrowId, receiptsHash := input.receiptsHash
           totalAmount := input.totalAmount, feeAmount := some quoted.fee, status := .pending
           receiptCount := input.receiptCount, packedReceipts := input.packedReceipts
           attempts := 0, nextRetryAt := none, lastError := none, txHash := none
           settledAt := none }

def replayable (status : SettlementStatus) : Bool :=
  status = .deadLetter || status = .rejected

/-- A process goes on with the answer it was waiting for. -/
def resume (cfg : Config) (s : State) (pid : Pid) (now : Time) (reply : Reply) : Process → Option State
  | .insert entity =>
      match reply with
      | .done =>
          -- the id is generated by the database
          if s.store.find entity.id = none then
            let s' := { s with store := s.store.save entity }
            if cfg.hubConfigured then
              some (s'.spawn pid
                (.attempt .settleBatch now (startAttempt entity).1 (startAttempt entity).2))
            else
              some (s'.exit pid)
          else
            none
      | .failed _ => some (s.exit pid)
      | _ => none
  | .findById id =>
      match reply with
      | .done =>
          match s.store.find id with
          | none => some (s.exit pid)
          | some row =>
              -- the three checks of `replay`; a failing one throws and nothing is written
              if replayable row.status = true ∧ cfg.hubConfigured = true ∧ s.paused = false then
                let entity := startAttempt { row with attempts := 0 }
                some (s.spawn pid (.attempt .replay now entity.1 entity.2))
              else
                some (s.exit pid)
      | .failed _ => some (s.exit pid)
      | _ => none
  | .findDueRetries tick =>
      match reply with
      | .done => some (s.nextDue pid tick (findDueRetries s.store tick cfg.batchSize))
      | .failed _ => some { s.exit pid with running := false }
      | _ => none
  | .attempt caller begun entity stage =>
      -- `begun` is the `now` the attempt was called with, however long it has waited
      match attemptStep cfg begun entity stage reply s.store with
      | none => none
      | some (store, flow) => some ({ s with store }.proceed pid caller begun flow)

def step (cfg : Config) (a : Action) (s : State) : Option State :=
  match a with
  | .settleBatch pid id input =>
      if s.process pid = none ∧ s.paused = false then
        match newSettlement cfg id input with
        | .ok entity => some (s.spawn pid (.insert entity))
        | .error _ => none
      else
        none
  | .processDue pid now =>
      if s.process pid = none ∧ s.running = false ∧ s.paused = false then
        some { s.spawn pid (.findDueRetries now) with running := true }
      else
        none
  -- a replay looks at the pause switch only after it has read the row
  | .replay pid id => if s.process pid = none then some (s.spawn pid (.findById id)) else none
  | .resume pid now reply =>
      match s.process pid with
      | some p => resume cfg s pid now reply p
      | none => none
  | .evolve hash fate =>
      match Table.lookup Transaction.hash s.store.transactions hash with
      | some tx =>
          if tx.fate.canBecome fate = true then
            some { s with store := s.store.broadcast { tx with fate } }
          else
            none
      | none => none
  | .setPaused paused => some { s with paused }

end Settlement
end PaymentRail
