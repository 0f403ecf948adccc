import PaymentRail.Escrow.EscrowSession
import PaymentRail.Strings.CodeUnits

/-!
# EscrowService — the calls on escrow sessions

This module embeds `escrow/escrow.service.ts`, `escrow/escrow-release.service.ts`,
`escrow/spending-limit.service.ts` and `streaming/streaming.service.ts` as a `Service`: a call runs
from one await to the next, and while it waits any other call may take a step.

What the outside world decides is part of a reply: the id of a new row, whether a transaction is
sent, and when a wait for one ends and how.  A storage operation is answered; the answers never
fail.  The chain keeps every transaction ever broadcast and moves on by itself (`Event.evolve`).
-/

namespace PaymentRail
namespace Escrow

open Machine Strings Money Collections
open Settlement (Fate)

/-! ## Requests and answers -/

/-- The numbers of the request, as the decimals they print. -/
structure OpenEscrowDto where
  agentA : Text
  agentB : Text
  depositAmount : Amount
  budgetLimit : Amount
  verificationRequired : Bool
  ttl : Nat
  /-- `@Min(1)` -/
  depositAmount_min : (scale : Int) ≤ depositAmount.wei
  budgetLimit_min : (scale : Int) ≤ budgetLimit.wei
  deriving DecidableEq

structure ReleaseEscrowDto where
  amount : Text
  note : Option Text
  deriving DecidableEq, Repr

structure RefundResult where
  escrowId : SessionId
  totalDeposited : Text
  totalClaimed : Text
  refundAmount : Text
  refundedAt : Time
  reason : Option String
  deriving DecidableEq, Repr

inductive Request where
  | «open» (dto : OpenEscrowDto)
  | close (id : SessionId)
  | emergencyClose (id : SessionId)
  | cancel (id : SessionId)
  | release (id : SessionId) (dto : ReleaseEscrowDto)
  | claim (escrowId : SessionId) (usageDelta : Amount)
  | refundUnused (escrowId : SessionId) (reason : Option String)
  deriving DecidableEq

inductive Answer where
  | session (session : EscrowSession) (txHash : Option TxHash)
  | released (release : EscrowRelease) (balance : EscrowBalance)
  | claimed (claim : StreamClaim)
  | refunded (result : RefundResult)
  /-- An exception, with its HTTP status. -/
  | error (status : Nat) (message : String)
  deriving DecidableEq, Repr

inductive Reply where
  | done
  /-- The database has generated this id. -/
  | inserted (id : Nat)
  | sent (hash : TxHash)
  | failed (message : String)
  deriving DecidableEq, Repr

/-! ## Configuration -/

structure Config where
  /-- `ESCROW_HUB_ADDRESS` is set. -/
  hubConfigured : Bool
  /-- The rows of `spending_limits`, by lowercased payer. -/
  overrides : List (Text × Amount)
  defaultLimit : Option Int
  /-- `windowHours`, as it prints and in microseconds. -/
  windowHours : String
  window : Nat
  /-- The `hashtext` of Postgres. -/
  hashtext : Text → Nat

def Config.limitFor (cfg : Config) (address : Text) : Option Int :=
  match Table.lookup Prod.fst cfg.overrides address with
  | some override => if 0 < override.2.wei then some override.2.wei else none
  | none => cfg.defaultLimit

/-- A `Date` has no fractions of a millisecond. -/
def Config.windowStart (cfg : Config) (now : Time) : Int := ((now : Int) - cfg.window) / 1000 * 1000

/-- The session counts against the limit of `address` if it was created after `since`. -/
def EscrowSession.countedSince (session : EscrowSession) (address : Text) (since : Int) : Bool :=
  toLowerCase session.agentA = address ∧ since < session.createdAt ∧ session.status ≠ .cancelled

def Config.spentInWindow (cfg : Config) (store : Store) (address : Text) (now : Time) : Int :=
  ((store.sessions.filter fun session =>
    session.countedSince address (cfg.windowStart now)).map (·.depositAmount.wei)).sum

/-! ## Processes -/

/-- Who writes a session back after having loaded it. -/
inductive Closing where
  | close
  | emergencyClose
  | cancel
  /-- `refundUnused`, which has computed its result and calls `emergencyClose`. -/
  | refundUnused (result : RefundResult)
  deriving DecidableEq, Repr

/-- The status that is written. -/
def Closing.status : Closing → EscrowStatus
  | .cancel => .cancelled
  | _ => .closed

/-- What a call is waiting for. -/
inductive Process where
  -- `open`, through `withinLimit`
  | limitFor (dto : OpenEscrowDto) (now : Time)
  | insertSession (dto : OpenEscrowDto)
  | begin (dto : OpenEscrowDto) (now : Time) (limit : Int)
  | advisoryLock (dto : OpenEscrowDto) (now began : Time) (limit : Int)
  | spentInWindow (dto : OpenEscrowDto) (now began : Time) (limit : Int)
  | insertLocked (dto : OpenEscrowDto) (now began : Time) (limit : Int)
  | commit (session : EscrowSession) (now : Time) (limit : Int)
  -- the on-chain part of `open` and `close`
  | sendCall (session : EscrowSession) (call : HubCall)
  | waitCall (session : EscrowSession) (hash : TxHash)
  -- `close`, `emergencyClose` and `cancel`
  | findById (op : Closing) (id : SessionId)
  | saveSession (op : Closing) (loaded : EscrowSession) (closedAt : Time)
  -- `refundUnused`, up to its `emergencyClose`
  | findRefunded (id : SessionId) (reason : Option String)
  | findClaims (session : EscrowSession) (reason : Option String)
  -- `release`
  | reserve (id : SessionId) (dto : ReleaseEscrowDto) (amount : Amount)
  | refused (id : SessionId) (dto : ReleaseEscrowDto)
  | insertRelease (id : SessionId) (dto : ReleaseEscrowDto) (amount : Amount)
  | payOut (release : EscrowRelease)
  | waitPayOut (release : EscrowRelease) (hash : TxHash)
  | giveBack (release : EscrowRelease) (message : String)
  | saveFailed (release : EscrowRelease)
  | savePaid (release : EscrowRelease)
  | findBalance (release : EscrowRelease)
  -- `claim`
  | lastClaim (escrowId : SessionId) (usageDelta : Amount)
  | saveClaim (claim : StreamClaim)
  deriving DecidableEq

/-- The entity `close`, `emergencyClose` and `cancel` save. -/
def Closing.written (op : Closing) (loaded : EscrowSession) (closedAt : Time) : EscrowSession :=
  { loaded with status := op.status, closedAt := some closedAt }

def newSession (id : SessionId) (createdAt : Time) (dto : OpenEscrowDto) : EscrowSession where
  id := id
  agentA := dto.agentA
  agentB := dto.agentB
  depositAmount := dto.depositAmount
  budgetLimit := dto.budgetLimit
  releasedAmount := ⟨0⟩
  verificationRequired := dto.verificationRequired
  status := .open
  ttl := dto.ttl
  createdAt := createdAt
  closedAt := none
  refundedAt := none

def newRelease (id : ReleaseId) (escrowId : SessionId) (dto : ReleaseEscrowDto) (amount : Amount) :
    EscrowRelease where
  id := id
  escrowId := escrowId
  amount := amount
  status := .completed
  note := dto.note
  txHash := none
  lastError := none

/-- The entity of a release whose payout has failed. -/
def markFailed (release : EscrowRelease) (message : String) : EscrowRelease :=
  { release with
    status := .failed
    lastError := some (String.ofList (Strings.slicePrefix 500 message.toList)) }

/-! ## Messages -/

def notFound (id : SessionId) : Answer :=
  .error 404 ("Escrow " ++ toString id ++ " not found")

def onlyOpenIsCancelled (session : EscrowSession) : Answer :=
  .error 409 ("Escrow " ++ toString session.id ++ " is " ++ session.status.text ++
    "; only an open session can be cancelled")

def alreadyClosed (id : SessionId) : Answer :=
  .error 400 ("Escrow " ++ toString id ++ " is already closed; refund must be issued before close")

def onlyOpenReleases (session : EscrowSession) : Answer :=
  .error 409 ("Escrow " ++ toString session.id ++ " is " ++ session.status.text ++
    "; only an open session can release funds")

def exceedsBalance (dto : ReleaseEscrowDto) (balance : EscrowBalance) : Answer :=
  .error 409 ("Release of " ++ String.ofList dto.amount ++ " exceeds the remaining balance " ++
    String.ofList balance.remainingBalance)

def limitExceeded (windowHours : String) (limit spent : Int) : Answer :=
  let remaining := if spent < limit then limit - spent else 0
  .error 403 ("Spending limit exceeded: " ++ String.ofList (Amount.fromWei limit).toString ++ " per " ++
    windowHours ++ "h, " ++ String.ofList (Amount.fromWei spent).toString ++
    " already spent, " ++ String.ofList (Amount.fromWei remaining).toString ++ " remaining")

def pausedByOperator (scope reason : String) : Answer :=
  .error 503 (scope ++ " is paused by the operator" ++ if reason = "" then "" else ": " ++ reason)

/-! ## The service -/

/-- The row is stored: `open` goes on to the hub, if there is one. -/
def afterOpen (cfg : Config) (session : EscrowSession) : Flow Process Answer :=
  if cfg.hubConfigured then
    .await (.sendCall session (.openEscrow session.id session.agentB session.budgetLimit.wei
      session.verificationRequired session.ttl session.depositAmount.wei))
  else
    .answer (.session session none)

/-- The session is saved; only `close` goes on to the hub. -/
def afterSave (cfg : Config) (op : Closing) (saved : EscrowSession) (date : Time) :
    Flow Process Answer :=
  match op with
  | .close =>
      if cfg.hubConfigured then .await (.sendCall saved (.closeEscrow saved.id))
      else .answer (.session saved none)
  | .refundUnused result => .answer (.refunded { result with refundedAt := date })
  | _ => .answer (.session saved none)

/-- The row of a release is stored as completed: the payout follows, if there is a hub. -/
def afterInsert (cfg : Config) (release : EscrowRelease) : Process :=
  if cfg.hubConfigured then .payOut release else .findBalance release

/-- `refundUnused` before it closes the session; the claims are summed as they stand. -/
def refundOf (session : EscrowSession) (claims : List StreamClaim) (reason : Option String) :
    RefundResult :=
  let totalClaimed := Amount.sum (claims.map (·.usageDelta))
  { escrowId := session.id
    totalDeposited := session.depositAmount.toPlain
    totalClaimed := totalClaimed.toPlain
    refundAmount := (session.depositAmount.minusFloored totalClaimed).toPlain
    refundedAt := 0
    reason := reason }

def Store.claimsOf (store : Store) (escrowId : SessionId) : List StreamClaim :=
  store.claims.filter fun claim => claim.escrowId = escrowId

/-- `claim` adds to the cumulative amount of the latest claim. -/
def nextClaim (latest : Option StreamClaim) (escrowId : SessionId) (usageDelta : Amount) :
    StreamClaim where
  escrowId := escrowId
  usageDelta := usageDelta
  cumulativeAmount :=
    ((latest.map StreamClaim.cumulativeAmount).getD (Amount.fromWei 0)).plus usageDelta

/-- Why a reservation was refused, as found out afterwards. -/
def refusal (session : EscrowSession) (dto : ReleaseEscrowDto) : Answer :=
  if session.status ≠ .open then
    onlyOpenReleases session
  else
    match toBalance session with
    | .ok balance => exceedsBalance dto balance
    | .error message => .error 500 message

def start : Request → Store → Store × Flow Process Answer
  -- the clock is read before anything is waited for
  | .open dto, store => (store, .await (.limitFor dto store.date))
  | .close id, store => (store, .await (.findById .close id))
  | .emergencyClose id, store => (store, .await (.findById .emergencyClose id))
  | .cancel id, store => (store, .await (.findById .cancel id))
  | .release id dto, store =>
      match store.settlementPaused with
      | some reason => (store, .answer (pausedByOperator "settlement" reason))
      | none =>
          match amountFrom dto.amount with
          | .error message => (store, .answer (.error 500 message))
          | .ok amount =>
              if amount.wei ≤ 0 then
                (store, .answer (.error 400 "amount must be greater than zero"))
              else
                (store, .await (.reserve id dto amount))
  | .claim escrowId usageDelta, store =>
      match store.streamingPaused with
      | some reason => (store, .answer (pausedByOperator "streaming" reason))
      | none => (store, .await (.lastClaim escrowId usageDelta))
  | .refundUnused escrowId reason, store => (store, .await (.findRefunded escrowId reason))

def resume (cfg : Config) (id : CallId) : Process → Reply → Store → Option (Store × Flow Process Answer)
  | .limitFor dto now, .done, store =>
      match cfg.limitFor (toLowerCase dto.agentA) with
      | none => some (store, .await (.insertSession dto))
      | some limit => some (store, .await (.begin dto now limit))
  | .insertSession dto, .inserted new, store =>
      if store.find new = none then
        let session := newSession new store.now dto
        some (store.save session, afterOpen cfg session)
      else
        none
  -- `createdAt` defaults to the start of the transaction
  | .begin dto now limit, .done, store => some (store, .await (.advisoryLock dto now store.now limit))
  | .advisoryLock dto now began limit, .done, store =>
      let key := cfg.hashtext (toLowerCase dto.agentA)
      if Table.lookup Prod.fst store.locks key = none then
        some (store.lock key id, .await (.spentInWindow dto now began limit))
      else
        none
  | .spentInWindow dto now began limit, .done, store =>
      let address := toLowerCase dto.agentA
      let spent := cfg.spentInWindow store address now
      if limit < spent + dto.depositAmount.wei then
        -- the exception rolls the transaction back, and the lock goes with it
        some (store.unlock (cfg.hashtext address),
          .answer (limitExceeded cfg.windowHours limit spent))
      else
        some (store, .await (.insertLocked dto now began limit))
  | .insertLocked dto now began limit, .inserted new, store =>
      some (store, .await (.commit (newSession new began dto) now limit))
  -- others see the row, and the lock is free, once the transaction has committed
  | .commit session _ _, .done, store =>
      if store.find session.id = none then
        some ((store.save session).unlock (cfg.hashtext (toLowerCase session.agentA)),
          afterOpen cfg session)
      else
        none
  | .sendCall session call, .sent hash, store =>
      if Table.lookup Transaction.hash store.transactions hash = none then
        some (store.broadcast { hash, call, fate := .pending }, .await (.waitCall session hash))
      else
        none
  -- an error of the hub is only logged
  | .sendCall session _, .failed _, store => some (store, .answer (.session session none))
  | .waitCall session hash, .done, store =>
      if (store.fateOf hash).isMined = true then some (store, .answer (.session session (some hash)))
      else none
  | .waitCall session _, .failed _, store => some (store, .answer (.session session none))
  | .findById op sid, .done, store =>
      match store.find sid with
      | none => some (store, .answer (notFound sid))
      | some session =>
          if op = .cancel ∧ session.status ≠ .open then
            some (store, .answer (onlyOpenIsCancelled session))
          else
            some (store, .await (.saveSession op session store.date))
  | .saveSession op loaded closedAt, .done, store =>
      let entity := op.written loaded closedAt
      some (store.save entity, afterSave cfg op entity store.date)
  | .findRefunded sid reason, .done, store =>
      match store.find sid with
      | none => some (store, .answer (notFound sid))
      | some session =>
          if session.status = .closed then some (store, .answer (alreadyClosed sid))
          else some (store, .await (.findClaims session reason))
  | .findClaims session reason, .done, store =>
      let result := refundOf session (store.claimsOf session.id) reason
      some (store, .await (.findById (.refundUnused result) session.id))
  | .reserve sid dto amount, .done, store =>
      match store.reserve sid amount.wei with
      | some store' => some (store', .await (.insertRelease sid dto amount))
      | none => some (store, .await (.refused sid dto))
  | .refused sid dto, .done, store =>
      match store.find sid with
      | none => some (store, .answer (notFound sid))
      | some session => some (store, .answer (refusal session dto))
  | .insertRelease sid dto amount, .inserted new, store =>
      if Table.lookup EscrowRelease.id store.releases new = none then
        let release := newRelease new sid dto amount
        some (store.saveRelease release, .await (afterInsert cfg release))
      else
        none
  | .payOut release, .sent hash, store =>
      if Table.lookup Transaction.hash store.transactions hash = none then
        let call := HubCall.settleBatch release.escrowId release.id release.amount.wei
        some (store.broadcast { hash, call, fate := .pending }, .await (.waitPayOut release hash))
      else
        none
  | .payOut release, .failed message, store => some (store, .await (.giveBack release message))
  | .waitPayOut release hash, .done, store =>
      if (store.fateOf hash).isMined = true then
        some (store, .await (.savePaid { release with txHash := some hash }))
      else
        none
  -- a reverted or dropped transaction, or a timeout while it is still pending
  | .waitPayOut release _, .failed message, store => some (store, .await (.giveBack release message))
  | .giveBack release message, .done, store =>
      -- whether a row changed is not looked at
      some ((store.reserve release.escrowId (-release.amount.wei)).getD store,
        .await (.saveFailed (markFailed release message)))
  | .saveFailed release, .done, store =>
      some (store.saveRelease release,
        .answer (.error 502 ("On-chain release failed: " ++ release.lastError.getD "")))
  | .savePaid release, .done, store => some (store.saveRelease release, .await (.findBalance release))
  | .findBalance release, .done, store =>
      match store.find release.escrowId with
      | none => some (store, .answer (notFound release.escrowId))
      | some session =>
          match toBalance session with
          | .ok balance => some (store, .answer (.released release balance))
          | .error message => some (store, .answer (.error 500 message))
  | .lastClaim escrowId usageDelta, .done, store =>
      some (store, .await (.saveClaim (nextClaim (store.claimsOf escrowId).head? escrowId usageDelta)))
  | .saveClaim claim, .done, store =>
      some ({ store with claims := claim :: store.claims }, .answer (.claimed claim))
  | _, _, _ => none

inductive Event where
  | expireDue (now : Time)
  | markRefunded (id : SessionId) (refundedAt : Time)
  | evolve (hash : TxHash) (fate : Fate)
  | tick (now : Time)
  | pauseSettlement (reason : Option String)
  | pauseStreaming (reason : Option String)
  deriving DecidableEq, Repr

def external : Event → Store → Option Store
  | .expireDue now, store => some (store.expireDue now)
  | .markRefunded id refundedAt, store => some (store.markRefunded id refundedAt)
  | .evolve hash fate, store =>
      match Table.lookup Transaction.hash store.transactions hash with
      | some tx =>
          if tx.fate.canBecome fate = true then some (store.broadcast { tx with fate }) else none
      | none => none
  -- time does not go back
  | .tick now, store => if store.now ≤ now then some { store with now } else none
  | .pauseSettlement reason, store => some { store with settlementPaused := reason }
  | .pauseStreaming reason, store => some { store with streamingPaused := reason }

/-- All calls on escrow sessions together. -/
def service (cfg : Config) : Service Store Request Process Reply Answer Event where
  start := start
  resume := resume cfg
  external := external

end Escrow
end PaymentRail
