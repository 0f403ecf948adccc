import Mathlib.Logic.Function.Basic
import PaymentRail.Machine.Except
import PaymentRail.Machine.Run
import PaymentRail.Machine.Rollback
import PaymentRail.Strings.Numeral

/-!
# EscrowHub — the escrow contract as a re-entrant machine

This module embeds `contracts/src/EscrowHub.sol`:

* each external function is run up to its value call (`Next`), with the checks, the storage
  writes and the revert texts in the order of the source;
* `step` lets the environment act: calls by any account, ether forced into the contract, calls
  between other contracts, and the success or failure of the innermost pending call.

While a value call is pending its frame is on the stack of a `Machine.Journal`, and the callee may
call the hub again any number of times before it returns.  A failing call restores the snapshot
taken when it started.

Besides the contract's storage, balance and event log, a `World` carries the history variable
`ledger`: what happened to money and sessions so far, newest first.  It is rolled back together
with everything else, so it is the history that survived.
-/

namespace PaymentRail
namespace Contracts

open Machine

/-! ## Values -/

abbrev Address := Fin (2 ^ 160)

abbrev Bytes32 := Fin (2 ^ 256)

/-- Checked arithmetic of Solidity 0.8 on `uint256`: leaving the range panics with code 17. -/
def panic17 : String := "Panic(17)"

def checkedAdd (a b : Nat) : Except String Nat :=
  if a + b < 2 ^ 256 then .ok (a + b) else .error panic17

def checkedSub (a b : Nat) : Except String Nat :=
  if b ≤ a then .ok (a - b) else .error panic17

def checkedMul (a b : Nat) : Except String Nat :=
  if a * b < 2 ^ 256 then .ok (a * b) else .error panic17

@[simp] theorem checkedAdd_eq_ok {a b c : Nat} :
    checkedAdd a b = .ok c ↔ a + b < 2 ^ 256 ∧ a + b = c := by
  unfold checkedAdd
  split <;> simp_all

@[simp] theorem checkedSub_eq_ok {a b c : Nat} :
    checkedSub a b = .ok c ↔ b ≤ a ∧ a - b = c := by
  unfold checkedSub
  split <;> simp_all

@[simp] theorem checkedMul_eq_ok {a b c : Nat} :
    checkedMul a b = .ok c ↔ a * b < 2 ^ 256 ∧ a * b = c := by
  unfold checkedMul
  split <;> simp_all

/-! ## Storage, events and history -/

structure EscrowSession where
  agentA : Address
  agentB : Address
  deposit : Nat
  budgetLimit : Nat
  spent : Nat
  verificationRequired : Bool
  ttl : Nat
  createdAt : Nat
  active : Bool
  disputed : Bool
  deriving DecidableEq, Repr

/-- What a mapping returns for a key that was never written. -/
def EscrowSession.unset : EscrowSession :=
  { agentA := 0
    agentB := 0
    deposit := 0
    budgetLimit := 0
    spent := 0
    verificationRequired := false
    ttl := 0
    createdAt := 0
    active := false
    disputed := false }

inductive Event
  | escrowOpened (escrowId : Bytes32) (agentA agentB : Address) (deposit budgetLimit ttl : Nat)
  | batchSettled (escrowId receiptsHash : Bytes32) (totalAmount : Nat)
  | streamClaimed (escrowId : Bytes32) (agentB : Address) (usageDelta newSpent : Nat)
  | escrowClosed (escrowId : Bytes32) (refund : Nat)
  | escrowDisputed (escrowId : Bytes32)
  deriving DecidableEq, Repr

/-- One entry of the history variable. -/
inductive Entry
  | opened (escrowId : Bytes32) (session : EscrowSession)
  | paid (escrowId : Bytes32) (payee : Address) (payout fee : Nat)
  | closed (escrowId : Bytes32) (payer : Address) (refund : Nat)
  | frozen (escrowId : Bytes32)
  | received (amount : Nat)
  deriving DecidableEq, Repr

structure World where
  owner : Address
  escrows : Bytes32 → EscrowSession
  feePercent : Nat
  balance : Nat
  events : List Event
  ledger : List Entry

namespace World

def setEscrow (w : World) (escrowId : Bytes32) (session : EscrowSession) : World :=
  { w with escrows := Function.update w.escrows escrowId session }

def emit (w : World) (e : Event) : World :=
  { w with events := e :: w.events }

/-- Record `e` in the history. -/
def book (w : World) (e : Entry) : World :=
  { w with ledger := e :: w.ledger }

def credit (w : World) (value : Nat) : World :=
  { w with balance := w.balance + value }

def debit (w : World) (value : Nat) : World :=
  { w with balance := w.balance - value }

end World

/-! ## The external functions -/

structure Msg where
  sender : Address
  value : Nat
  deriving DecidableEq, Repr

/-- What is left of a function once its value call has returned with success. -/
inductive Resume
  | settleBatch (escrowId receiptsHash : Bytes32) (totalAmount : Nat)
  | claimStream (escrowId : Bytes32) (sender : Address) (usageDelta : Nat)
  | close (escrowId : Bytes32) (refund : Nat)
  deriving DecidableEq, Repr

/-- A function runs to its end, or up to `call{value: value}` on the account `callee`.  `entry` is
what the history records once the value has left. -/
inductive Next
  | done (w : World)
  | transfer (w : World) (callee : Address) (value : Nat) (entry : Entry) (resume : Resume)

def openEscrow (now : Nat) (msg : Msg) (escrowId : Bytes32) (agentB : Address)
    (budgetLimit : Nat) (verificationRequired : Bool) (ttl : Nat) (w : World) :
    Except String Next := do
  -- `createdAt` is what tells a session from a slot that was never written
  require ((w.escrows escrowId).createdAt = 0) "EscrowHub: already exists"
  require (0 < msg.value) "EscrowHub: deposit required"
  require (agentB ≠ 0) "EscrowHub: invalid agentB"
  let session : EscrowSession :=
    { agentA := msg.sender
      agentB := agentB
      deposit := msg.value
      budgetLimit := budgetLimit
      spent := 0
      verificationRequired := verificationRequired
      ttl := ttl
      createdAt := now
      active := true
      disputed := false }
  return .done
    (((w.setEscrow escrowId session).book (.opened escrowId session)).emit
      (.escrowOpened escrowId msg.sender agentB msg.value budgetLimit ttl))

/-- The second half of `settleBatch` and `claimStream`: budget and deposit checks, the fee, the
write to `spent`, and the call that pays `agentB`. -/
def payAgentB (escrowId : Bytes32) (amount : Nat) (resume : Resume) (w : World) :
    Except String Next := do
  let session := w.escrows escrowId
  require ((← checkedAdd session.spent amount) ≤ session.budgetLimit) "EscrowHub: exceeds budget"
  require ((← checkedAdd session.spent amount) ≤ session.deposit) "EscrowHub: exceeds deposit"
  -- basis points; the division rounds the fee down, the payout gets the rest
  let fee := (← checkedMul amount w.feePercent) / 10000
  let payout ← checkedSub amount fee
  let spent ← checkedAdd session.spent amount
  -- `spent` is stored before the call, so a callee that re-enters meets the new value
  return .transfer (w.setEscrow escrowId { session with spent := spent }) session.agentB payout
    (.paid escrowId session.agentB payout fee) resume

def settleBatch (escrowId receiptsHash : Bytes32) (totalAmount : Nat) (w : World) :
    Except String Next := do
  -- the source does not look at the sender here: anyone may settle a batch
  let session := w.escrows escrowId
  require (session.active = true) "EscrowHub: not active"
  require (session.disputed = false) "EscrowHub: disputed"
  payAgentB escrowId totalAmount (.settleBatch escrowId receiptsHash totalAmount) w

def claimStream (now : Nat) (msg : Msg) (escrowId : Bytes32) (usageDelta : Nat) (w : World) :
    Except String Next := do
  let session := w.escrows escrowId
  require (session.active = true) "EscrowHub: not active"
  require (session.disputed = false) "EscrowHub: disputed"
  require (msg.sender = session.agentB) "EscrowHub: only agentB"
  require (now ≤ (← checkedAdd session.createdAt session.ttl)) "EscrowHub: TTL expired"
  payAgentB escrowId usageDelta (.claimStream escrowId msg.sender usageDelta) w

/-- The second half of `closeEscrow` and `emergencyClose`: deactivate, then refund what is left.
With nothing left there is no call and the function ends here. -/
def refundAgentA (escrowId : Bytes32) (w : World) : Except String Next := do
  let session := w.escrows escrowId
  -- deactivated before the call, like `spent` in a payment
  let w := w.setEscrow escrowId { session with active := false }
  let refund ← checkedSub session.deposit session.spent
  if 0 < refund then
    return .transfer w session.agentA refund (.closed escrowId session.agentA refund)
      (.close escrowId refund)
  else
    return .done ((w.book (.closed escrowId session.agentA refund)).emit
      (.escrowClosed escrowId refund))

def closeEscrow (msg : Msg) (escrowId : Bytes32) (w : World) : Except String Next := do
  let session := w.escrows escrowId
  require (session.active = true) "EscrowHub: not active"
  require (msg.sender = session.agentA) "EscrowHub: only agentA"
  refundAgentA escrowId w

def emergencyClose (msg : Msg) (escrowId : Bytes32) (w : World) : Except String Next := do
  require (msg.sender = w.owner) "EscrowHub: not owner"
  let session := w.escrows escrowId
  require (session.active = true) "EscrowHub: not active"
  refundAgentA escrowId w

def freezeOnDispute (escrowId : Bytes32) (w : World) : Except String Next := do
  let session := w.escrows escrowId
  require (session.active = true) "EscrowHub: not active"
  return .done
    (((w.setEscrow escrowId { session with disputed := true }).book (.frozen escrowId)).emit
      (.escrowDisputed escrowId))

/-- `receive() external payable {}`; also what forced ether amounts to. -/
def receive (value : Nat) (w : World) : World :=
  (w.credit value).book (.received value)

/-- The rest of a function after its value call succeeded: only the event is left.
`StreamClaimed` reads `spent` again, after whatever the callee did. -/
def Resume.run (w : World) : Resume → World
  | .settleBatch escrowId receiptsHash totalAmount =>
      w.emit (.batchSettled escrowId receiptsHash totalAmount)
  | .claimStream escrowId sender usageDelta =>
      w.emit (.streamClaimed escrowId sender usageDelta (w.escrows escrowId).spent)
  | .close escrowId refund =>
      w.emit (.escrowClosed escrowId refund)

/-! ## Calls -/

inductive Call
  | openEscrow (escrowId : Bytes32) (agentB : Address) (budgetLimit : Nat)
      (verificationRequired : Bool) (ttl : Nat)
  | settleBatch (escrowId receiptsHash : Bytes32) (totalAmount : Nat)
  | claimStream (escrowId : Bytes32) (usageDelta : Nat)
  | closeEscrow (escrowId : Bytes32)
  | emergencyClose (escrowId : Bytes32)
  | freezeOnDispute (escrowId : Bytes32)
  | receive
  deriving DecidableEq, Repr

/-- A function that is not `payable` reverts, without a reason, when it is sent ether. -/
def nonPayable (msg : Msg) : Except String Unit := require (msg.value = 0) ""

/-- Dispatch of a call.  The value of a payable call is on the hub before its body runs. -/
def exec (now : Nat) (msg : Msg) (c : Call) (w : World) : Except String Next :=
  match c with
  | .openEscrow escrowId agentB budgetLimit verificationRequired ttl =>
      openEscrow now msg escrowId agentB budgetLimit verificationRequired ttl (w.credit msg.value)
  | .settleBatch escrowId receiptsHash totalAmount => do
      nonPayable msg
      settleBatch escrowId receiptsHash totalAmount w
  | .claimStream escrowId usageDelta => do
      nonPayable msg
      claimStream now msg escrowId usageDelta w
  | .closeEscrow escrowId => do
      nonPayable msg
      closeEscrow msg escrowId w
  | .emergencyClose escrowId => do
      nonPayable msg
      emergencyClose msg escrowId w
  | .freezeOnDispute escrowId => do
      nonPayable msg
      freezeOnDispute escrowId w
  | .receive => .ok (.done (receive msg.value w))

/-! ## The machine -/

/-- `now` is the timestamp of the current block.  A frame tagged `some k` is a hub function that
waits for its value call; `none` is a call between two other contracts. -/
structure State where
  journal : Journal World (Option Resume)
  now : Nat

namespace State

def world (s : State) : World := s.journal.current

end State

inductive Action
  /-- The next block; its timestamp is later than the one before. -/
  | block (timestamp : Nat)
  /-- Some account calls the hub. -/
  | call (msg : Msg) (c : Call)
  /-- Ether arrives without a call. -/
  | force (value : Nat)
  /-- A call between two other contracts starts. -/
  | enter
  /-- The innermost pending call returns with success. -/
  | ret
  /-- The innermost pending call fails. -/
  | fail
  deriving DecidableEq, Repr

/-- The value call of a hub function.  Without funds it fails, `require(sent)` reverts and the
whole function is undone.  A payout to the hub itself runs `receive` and comes back at once. -/
def sendValue (self : Address) (s : State) (w : World) (callee : Address) (value : Nat)
    (entry : Entry) (resume : Resume) : State :=
  if w.balance < value then
    s
  else if callee = self then
    { s with
      journal := s.journal.update (resume.run (receive value ((w.debit value).book entry))) }
  else
    { s with journal := s.journal.enter (some resume) ((w.debit value).book entry) }

/-- One action of the environment.  The hub's own code never calls one of its functions, so the
sender of a call is another account. -/
def step (self : Address) : Action → State → Option State
  | .block timestamp, s =>
      if s.journal.stack.isEmpty ∧ s.now < timestamp then some { s with now := timestamp } else none
  | .call msg c, s =>
      if msg.sender = self then
        none
      else
        match exec s.now msg c s.world with
        -- a revert undoes all the call did, the value it carried included
        | .error _ => some s
        | .ok (.done w) => some { s with journal := s.journal.update w }
        | .ok (.transfer w callee value entry resume) =>
            some (sendValue self s w callee value entry resume)
  | .force value, s => some { s with journal := s.journal.update (receive value s.world) }
  | .enter, s => some { s with journal := s.journal.enter none s.world }
  | .ret, s =>
      match s.journal.stack with
      | [] => none
      | frame :: _ =>
          match frame.tag with
          -- `require(sent)` holds; the rest of the waiting function runs in the callee's world
          | some resume => some { s with journal := s.journal.commit (resume.run s.world) }
          | none => some { s with journal := s.journal.commit s.world }
  | .fail, s =>
      match s.journal.stack with
      | [] => none
      -- the callee reverts, then `require(sent)` makes the waiting function revert as well
      | _ :: _ => some { s with journal := s.journal.rollback }

/-- The constructor.  Ether may sit on the address before the contract does. -/
def deploy (owner : Address) (funded : Nat) : World :=
  { owner := owner
    escrows := fun _ => EscrowSession.unset
    -- 0.5 percent; no function of the contract changes it
    feePercent := 50
    balance := funded
    events := []
    ledger := [.received funded] }

/-- The hub right after its deployment in the block that follows one with timestamp `parent`. -/
def initial (owner : Address) (funded parent delay : Nat) : State :=
  { journal := Journal.start (deploy owner funded), now := parent + delay + 1 }

end Contracts
end PaymentRail
