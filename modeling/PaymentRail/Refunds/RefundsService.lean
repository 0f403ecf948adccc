import PaymentRail.Escrow.Transitions
import PaymentRail.Strings.CodeUnits

/-!
# RefundsService — returning the unspent deposit of ended sessions

This module embeds `refunds/refunds.service.ts` next to the calls on escrow sessions: a refund is
requested for an expired or cancelled session, or found by the sweep, its row is created once with

  refund = deposit - settled batches - stream claims - partial releases   (never below zero)

and executed, with a hub by `emergencyClose`.  The store is the one of the escrow service together
with the settlements, the refund rows and the `emergencyClose` transactions.

As for the escrow calls, storage operations do not fail, and the chain moves on by itself.  On the
hub a second `emergencyClose` of an escrow reverts, so at most one of them is mined.
-/

namespace PaymentRail
namespace Refunds

open Machine Strings Money Collections Escrow
open Settlement (Fate SettlementStatus)

/-! ## Rows -/

inductive RefundReason where
  | expired
  | cancelled
  deriving DecidableEq, Repr

inductive RefundStatus where
  | pending
  | completed
  | failed
  deriving DecidableEq, Repr

/-- The escrow is unique among the refunds, so a row is known by it. -/
structure EscrowRefund where
  escrowId : SessionId
  reason : RefundReason
  depositAmount : Amount
  spentAmount : Amount
  refundAmount : Amount
  status : RefundStatus
  txHash : Option TxHash
  lastError : Option String
  completedAt : Option Time
  deriving DecidableEq, Repr

/-- The columns of a settlement that count here. -/
structure SettlementRow where
  id : Nat
  escrowId : SessionId
  totalAmount : Amount
  status : SettlementStatus
  deriving DecidableEq, Repr

/-- An `emergencyClose` that was broadcast. -/
structure ClosingTx where
  hash : TxHash
  escrowId : SessionId
  fate : Fate
  deriving DecidableEq, Repr

/-- `REFUNDABLE` -/
def refundable : EscrowStatus → Option RefundReason
  | .expired => some .expired
  | .cancelled => some .cancelled
  | _ => none

/-! ## The store -/

structure Store where
  escrow : Escrow.Store
  settlements : List SettlementRow
  refunds : List EscrowRefund
  closings : List ClosingTx
  /-- The instances whose sweep is running. -/
  sweeping : List Nat
  deriving DecidableEq, Repr

namespace Store

def empty : Store where
  escrow := .empty
  settlements := []
  refunds := []
  closings := []
  sweeping := []

def findRefund (store : Store) (escrowId : SessionId) : Option EscrowRefund :=
  Table.lookup EscrowRefund.escrowId store.refunds escrowId

def saveRefund (store : Store) (refund : EscrowRefund) : Store :=
  { store with refunds := Table.put EscrowRefund.escrowId store.refunds refund }

def broadcast (store : Store) (tx : ClosingTx) : Store :=
  { store with closings := Table.put ClosingTx.hash store.closings tx }

def fateOf (store : Store) (hash : TxHash) : Fate :=
  match Table.lookup ClosingTx.hash store.closings hash with
  | some tx => tx.fate
  | none => .dropped

def withEscrow (store : Store) (escrow : Escrow.Store) : Store := { store with escrow }

def saveSettlement (store : Store) (row : SettlementRow) : Store :=
  { store with settlements := Table.put SettlementRow.id store.settlements row }

def setSweeping (store : Store) (server : Nat) : Store :=
  { store with sweeping := server :: store.sweeping }

def endSweep (store : Store) (server : Nat) : Store :=
  { store with sweeping := store.sweeping.filter (· ≠ server) }

/-- `SUM("totalAmount")` of the settled settlements of an escrow. -/
def settled (store : Store) (escrowId : SessionId) : Int :=
  ((store.settlements.filter fun row => row.escrowId = escrowId ∧ row.status = .settled).map
    (·.totalAmount.wei)).sum

/-- `SUM("usageDelta")` of the stream claims of an escrow. -/
def claimed (store : Store) (escrowId : SessionId) : Int :=
  ((store.escrow.claimsOf escrowId).map (·.usageDelta.wei)).sum

end Store

/-! ## Requests, answers and processes -/

structure RefundSweepResult where
  expired : Nat
  refunded : Nat
  failed : Nat
  deriving DecidableEq, Repr

inductive Request where
  | escrow (request : Escrow.Request)
  | refund (escrowId : SessionId)
  | sweep (server : Nat)
  deriving DecidableEq

inductive Answer where
  | escrow (answer : Escrow.Answer)
  | refund (refund : EscrowRefund)
  | swept (result : RefundSweepResult)
  /-- An exception, with its HTTP status. -/
  | error (status : Nat) (message : String)
  deriving DecidableEq, Repr

/-- Who called `refund`; a sweep still has the rest of the sessions it found to do. -/
inductive Caller where
  | request
  | sweep (server : Nat) (rest : List SessionId) (result : RefundSweepResult)
  deriving DecidableEq, Repr

/-- What a call of `refund` is waiting for. -/
inductive Stage where
  | findById
  | findOne (session : EscrowSession) (reason : RefundReason)
  -- `create`
  | settled (session : EscrowSession) (reason : RefundReason)
  | claimed (session : EscrowSession) (reason : RefundReason) (settled : Int)
  | insert (refund : EscrowRefund)
  | adopt
  -- `execute`
  | send (refund : EscrowRefund)
  | waitFor (refund : EscrowRefund) (hash : TxHash)
  | save (refund : EscrowRefund)
  | markRefunded (refund : EscrowRefund)
  deriving DecidableEq, Repr

inductive Process where
  | escrow (process : Escrow.Process)
  | refund (caller : Caller) (escrowId : SessionId) (stage : Stage)
  | expireDue (server : Nat) (now : Time)
  | findAwaitingRefund (server : Nat) (expired : Nat)
  deriving DecidableEq

/-! ## One refund -/

structure Config where
  escrow : Escrow.Config
  sweepBatch : Nat

/-- The row `create` inserts. -/
def newRefund (session : EscrowSession) (reason : RefundReason) (spent : Int) : EscrowRefund where
  escrowId := session.id
  reason := reason
  depositAmount := session.depositAmount
  spentAmount := ⟨spent⟩
  refundAmount :=
    ⟨if session.depositAmount.wei < spent then 0 else session.depositAmount.wei - spent⟩
  status := .pending
  txHash := none
  lastError := none
  completedAt := none

def completed (refund : EscrowRefund) (now : Time) : EscrowRefund :=
  { refund with status := .completed, completedAt := some now, lastError := none }

def failed (refund : EscrowRefund) (message : String) : EscrowRefund :=
  { refund with
    status := .failed
    lastError := some (String.ofList (Strings.slicePrefix 500 message.toList)) }

/-- The beginning of `execute`; without a hub the refund is recorded only. -/
def execute (cfg : Config) (refund : EscrowRefund) (now : Time) : Stage :=
  if cfg.escrow.hubConfigured then .send refund else .save (completed refund now)

def notRefundable (session : EscrowSession) : Answer :=
  .error 409 ("Escrow " ++ toString session.id ++ " is " ++ session.status.text ++
    "; only expired or cancelled sessions are refunded")

def noRefund (escrowId : SessionId) : Answer :=
  .error 404 ("No refund for escrow " ++ toString escrowId)

/-- What a sweep counts for a refund that has ended. -/
def RefundSweepResult.count (result : RefundSweepResult) : Answer → RefundSweepResult
  | .refund refund =>
      if refund.status = .completed then { result with refunded := result.refunded + 1 }
      else { result with failed := result.failed + 1 }
  | _ => { result with failed := result.failed + 1 }

/-- The sweep goes on with the next session, or ends. -/
def sweepNext (store : Store) (server : Nat) (result : RefundSweepResult) :
    List SessionId → Store × Flow Process Answer
  | [] => (store.endSweep server, .answer (.swept result))
  | escrowId :: rest => (store, .await (.refund (.sweep server rest result) escrowId .findById))

/-- A call of `refund` returns or throws. -/
def finish (store : Store) (a : Answer) : Caller → Store × Flow Process Answer
  | .request => (store, .answer a)
  | .sweep server rest result => sweepNext store server (result.count a) rest

def refundStep (cfg : Config) (caller : Caller) (escrowId : SessionId) (stage : Stage)
    (reply : Reply) (store : Store) : Option (Store × Flow Process Answer) :=
  let await := fun stage => Flow.await (α := Answer) (Process.refund caller escrowId stage)
  match stage, reply with
  | .findById, .done =>
      match store.escrow.find escrowId with
      | none =>
          some (finish store (.error 404 ("Escrow " ++ toString escrowId ++ " not found")) caller)
      | some session =>
          match refundable session.status with
          | none => some (finish store (notRefundable session) caller)
          | some reason => some (store, await (.findOne session reason))
  | .findOne session reason, .done =>
      match store.findRefund escrowId with
      | none => some (store, await (.settled session reason))
      | some refund =>
          if refund.status = .completed then some (finish store (.refund refund) caller)
          else some (store, await (execute cfg refund store.escrow.date))
  | .settled session reason, .done =>
      some (store, await (.claimed session reason (store.settled escrowId)))
  | .claimed session reason settled, .done =>
      let spent := settled + store.claimed escrowId + session.releasedAmount.wei
      some (store, await (.insert (newRefund session reason spent)))
  | .insert refund, .done =>
      -- a concurrent request may have created the row first
      match store.findRefund escrowId with
      | some _ => some (store, await .adopt)
      | none => some (store.saveRefund refund, await (execute cfg refund store.escrow.date))
  | .adopt, .done =>
      match store.findRefund escrowId with
      | none => some (finish store (noRefund escrowId) caller)
      | some refund => some (store, await (execute cfg refund store.escrow.date))
  | .send refund, .sent hash =>
      if Table.lookup ClosingTx.hash store.closings hash = none then
        some (store.broadcast { hash, escrowId := refund.escrowId, fate := .pending },
          await (.waitFor { refund with txHash := some hash } hash))
      else
        none
  | .send refund, .failed message => some (store, await (.save (failed refund message)))
  | .waitFor refund hash, .done =>
      if (store.fateOf hash).isMined = true then
        some (store, await (.save (completed refund store.escrow.date)))
      else
        none
  -- a reverted or dropped transaction, or a timeout while it is still pending
  | .waitFor refund _, .failed message => some (store, await (.save (failed refund message)))
  | .save refund, .done =>
      if refund.status = .completed then
        some (store.saveRefund refund, await (.markRefunded refund))
      else
        some (finish (store.saveRefund refund) (.refund refund) caller)
  | .markRefunded refund, .done =>
      some (finish
        (store.withEscrow (store.escrow.markRefunded refund.escrowId store.escrow.date))
        (.refund refund) caller)
  | _, _ => none

/-! ## The service -/

/-- A call on a session goes on as it does by itself. -/
def lift : Flow Escrow.Process Escrow.Answer → Flow Process Answer
  | .await p => .await (.escrow p)
  | .answer a => .answer (.escrow a)

def start : Request → Store → Store × Flow Process Answer
  | .escrow r, store =>
      (store.withEscrow (Escrow.start r store.escrow).1, lift (Escrow.start r store.escrow).2)
  | .refund escrowId, store => (store, .await (.refund .request escrowId .findById))
  | .sweep server, store =>
      if server ∈ store.sweeping then
        (store, .answer (.swept { expired := 0, refunded := 0, failed := 0 }))
      else
        (store.setSweeping server, .await (.expireDue server store.escrow.date))

def resume (cfg : Config) (id : CallId) (p : Process) (reply : Reply) (store : Store) :
    Option (Store × Flow Process Answer) :=
  match p with
  | .escrow p =>
      (Escrow.resume cfg.escrow id p reply store.escrow).map fun next =>
        (store.withEscrow next.1, lift next.2)
  | .refund caller escrowId stage => refundStep cfg caller escrowId stage reply store
  | .expireDue server now =>
      match reply with
      | .done =>
          some (store.withEscrow (store.escrow.expireDue now),
            .await (.findAwaitingRefund server
              (store.escrow.sessions.filter fun session => session.due now).length))
      | _ => none
  | .findAwaitingRefund server expired =>
      match reply with
      | .done =>
          let pending := store.escrow.findAwaitingRefund cfg.sweepBatch
          some (sweepNext store server { expired, refunded := 0, failed := 0 } (pending.map (·.id)))
      | _ => none

inductive Event where
  | escrow (event : Escrow.Event)
  /-- A settlement is stored. -/
  | settlement (row : SettlementRow)
  /-- The fate of an `emergencyClose`. -/
  | closing (hash : TxHash) (fate : Fate)
  deriving DecidableEq, Repr

/-- Another `emergencyClose` of the escrow has been mined. -/
def Store.closedBy (store : Store) (tx : ClosingTx) : Bool :=
  store.closings.any fun other =>
    other.escrowId = tx.escrowId && other.hash ≠ tx.hash && other.fate.isMined

def external : Event → Store → Option Store
  -- `markRefunded` is called from here only
  | .escrow (.markRefunded _ _), _ => none
  | .escrow e, store => (Escrow.external e store.escrow).map store.withEscrow
  | .settlement row, store => some (store.saveSettlement row)
  | .closing hash fate, store =>
      match Table.lookup ClosingTx.hash store.closings hash with
      | none => none
      | some tx =>
          -- the hub has deactivated the escrow: a second `emergencyClose` reverts
          if tx.fate.canBecome fate = true ∧ ¬ (fate.isMined = true ∧ store.closedBy tx = true) then
            some (store.broadcast { tx with fate })
          else
            none

/-- All calls on sessions and refunds together. -/
def service (cfg : Config) : Service Store Request Process Reply Answer Event where
  start := start
  resume := resume cfg
  external := external

end Refunds
end PaymentRail
