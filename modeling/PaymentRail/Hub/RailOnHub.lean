import PaymentRail.Hub.Wallet
import PaymentRail.Refunds.RefundedOnce

/-!
# RailOnHub — the rail and the hub together

The calls of the rail run one after the other, and what they send is executed on the hub.  The fate
of a transaction is no longer free: it is mined when `transact` succeeds, and reverts otherwise
(`Act.mine`, `Act.mineClosing`).  A settlement is one operation here: its `settleBatch` is mined, and
its row is `settled`.

The runs are those in which

* an operation waits for its transactions until they are mined or have failed for good;
* the id of a new session is new on the hub as well, and so is its hash among the sessions;
* other accounts do what they like with other escrows.
-/

namespace PaymentRail
namespace Hub

open Machine Strings Money Collections Refunds
open Escrow (SessionId TxHash Reply EscrowSession HubCall)
open Contracts (Address Bytes32 Msg Call World transact)

/-- The rail, the hub, and the time of the current block. -/
structure Rail where
  calls : State
  hub : World
  now : Nat

inductive Act where
  | rail (m : Move Request Reply Event)
  /-- A transaction of an escrow call is executed. -/
  | mine (hash : TxHash) (depth : Nat) (accepts : Bool)
  /-- An `emergencyClose` is executed. -/
  | mineClosing (hash : TxHash) (depth : Nat) (accepts : Bool)
  /-- `SettlementService.send` and the wait for its transaction. -/
  | settle (row : SettlementRow) (receiptsHash : Bytes32) (accepts : Bool)
  /-- Somebody else's transaction. -/
  | others (msg : Msg) (call : Call) (accepts : Bool)
  | block (timestamp : Nat)

namespace Rail

/-- Before the first session; the hub may have been in use. -/
def start (hub : World) (now : Nat) : Rail where
  calls := .start .empty
  hub := hub
  now := now

def store (r : Rail) : Store := r.calls.store

def withStore (r : Rail) (store : Store) : Rail := { r with calls := { r.calls with store } }

/-- The hub as the machine of the contract has it between two transactions. -/
def state (r : Rail) : Contracts.State := { journal := .start r.hub, now := r.now }

end Rail

namespace Network

/-- The hub as `net` has it for a session. -/
def escrow (net : Network) (hub : World) (sid : SessionId) : Contracts.EscrowSession :=
  hub.escrows (net.escrowIdHash sid)

/-- The id is new: on the hub, and among the hashes of the sessions. -/
def unused (net : Network) (r : Rail) (sid : SessionId) : Bool :=
  (net.escrow r.hub sid).createdAt = 0 &&
    r.store.escrow.sessions.all fun session => net.escrowIdHash session.id ≠ net.escrowIdHash sid

/-- No settled row has this id. -/
def unsettled (r : Rail) (row : SettlementRow) : Bool :=
  r.store.settlements.all fun other => other.id ≠ row.id || other.status ≠ .settled

/-- The moves of the rail that are left to it. -/
def allows (net : Network) : Move Request Reply Event → Rail → Bool
  | .resume id reply, r =>
      match r.calls.process id, reply with
      | some (.escrow (.insertSession _)), .inserted new => net.unused r new
      | some (.escrow (.commit session _ _)), _ => net.unused r session.id
      -- a wait ends when its transaction is mined or has failed for good
      | some (.escrow (.waitCall _ hash)), .failed _ => !(r.store.escrow.fateOf hash).live
      | some (.escrow (.waitPayOut _ hash)), .failed _ => !(r.store.escrow.fateOf hash).live
      | some (.refund _ _ (.waitFor _ hash)), .failed _ => !(r.store.fateOf hash).live
      | _, _ => true
  -- a transaction is mined by `mine` only
  | .external (.escrow (.evolve hash fate)), r =>
      !fate.isMined || (r.store.escrow.fateOf hash).isMined
  | .external (.closing hash fate), r => !fate.isMined || (r.store.fateOf hash).isMined
  -- a row is settled by `settle` only
  | .external (.settlement row), r => row.status ≠ .settled && unsettled r row
  | _, _ => true

/-- The transaction of a call, as the wallet sends it. -/
def execute (net : Network) (now : Nat) (call : HubCall) (accepts : Bool) (hub : World) :
    Option World :=
  match net.encode call with
  | some (msg, c) => transact net.hub now msg c accepts hub
  | none => none

/-- The `emergencyClose` of a session, as the wallet sends it. -/
def emergencyClose (net : Network) (now : Nat) (sid : SessionId) (accepts : Bool) (hub : World) :
    Option World :=
  transact net.hub now { sender := net.wallet, value := 0 } (.emergencyClose (net.escrowIdHash sid))
    accepts hub

/-- The `settleBatch` of a settlement, as the wallet sends it. -/
def settleBatch (net : Network) (now : Nat) (row : SettlementRow) (receiptsHash : Bytes32)
    (accepts : Bool) (hub : World) : Option World :=
  match uint256 row.totalAmount.wei with
  | some amount =>
      transact net.hub now { sender := net.wallet, value := 0 }
        (.settleBatch (net.escrowIdHash row.escrowId) receiptsHash amount) accepts hub
  | none => none

def step (net : Network) (cfg : Config) : Act → Rail → Option Rail
  | .rail m, r =>
      if net.allows m r = true then
        (oneByOneStep cfg m r.calls).map fun calls => { r with calls }
      else
        none
  | .mine hash depth accepts, r =>
      match Table.lookup Escrow.Transaction.hash r.store.escrow.transactions hash with
      | none => none
      | some tx =>
          let fated := fun fate => r.store.withEscrow (r.store.escrow.broadcast { tx with fate })
          if tx.fate = .pending then
            match net.execute r.now tx.call accepts r.hub with
            | some hub => some { r.withStore (fated (.mined depth)) with hub }
            | none => some (r.withStore (fated .reverted))
          else
            none
  | .mineClosing hash depth accepts, r =>
      match Table.lookup ClosingTx.hash r.store.closings hash with
      | none => none
      | some tx =>
          let fated := fun fate => r.store.broadcast { tx with fate }
          if tx.fate = .pending then
            match net.emergencyClose r.now tx.escrowId accepts r.hub with
            | some hub => some { r.withStore (fated (.mined depth)) with hub }
            | none => some (r.withStore (fated .reverted))
          else
            none
  | .settle row receiptsHash accepts, r =>
      if r.calls.processes.isEmpty = true ∧ (r.store.escrow.find row.escrowId).isSome = true ∧
          unsettled r row = true then
        (net.settleBatch r.now row receiptsHash accepts r.hub).map fun hub =>
          { r.withStore (r.store.saveSettlement { row with status := .settled }) with hub }
      else
        none
  | .others msg call accepts, r =>
      if msg.sender ≠ net.hub ∧ (r.store.escrow.sessions.all fun session =>
          call.escrowId? ≠ some (net.escrowIdHash session.id)) = true then
        (transact net.hub r.now msg call accepts r.hub).map fun hub => { r with hub }
      else
        none
  | .block timestamp, r => if r.now < timestamp then some { r with now := timestamp } else none

end Network

/-! ## What a step can do -/

inductive Acts (net : Network) (cfg : Config) (r : Rail) : Rail → Prop
  | rail {m : Move Request Reply Event} {calls : State} (hallows : net.allows m r = true)
      (h : oneByOneStep cfg m r.calls = some calls) : Acts net cfg r { r with calls }
  | mined {tx : Escrow.Transaction} {depth : Nat} {accepts : Bool} {hub : World}
      (hlookup : Table.lookup Escrow.Transaction.hash r.store.escrow.transactions tx.hash = some tx)
      (hpending : tx.fate = .pending) (h : net.execute r.now tx.call accepts r.hub = some hub) :
      Acts net cfg r { r.withStore (r.store.withEscrow
        (r.store.escrow.broadcast { tx with fate := .mined depth })) with hub }
  | reverted {tx : Escrow.Transaction}
      (hlookup : Table.lookup Escrow.Transaction.hash r.store.escrow.transactions tx.hash = some tx)
      (hpending : tx.fate = .pending) :
      Acts net cfg r (r.withStore (r.store.withEscrow
        (r.store.escrow.broadcast { tx with fate := .reverted })))
  | minedClosing {tx : ClosingTx} {depth : Nat} {accepts : Bool} {hub : World}
      (hlookup : Table.lookup ClosingTx.hash r.store.closings tx.hash = some tx)
      (h : net.emergencyClose r.now tx.escrowId accepts r.hub = some hub) :
      Acts net cfg r { r.withStore (r.store.broadcast { tx with fate := .mined depth }) with hub }
  | revertedClosing {tx : ClosingTx}
      (hlookup : Table.lookup ClosingTx.hash r.store.closings tx.hash = some tx)
      (hpending : tx.fate = .pending) :
      Acts net cfg r (r.withStore (r.store.broadcast { tx with fate := .reverted }))
  | settled {row : SettlementRow} {receiptsHash : Bytes32} {accepts : Bool} {hub : World}
      (hidle : r.calls.processes = []) (hstored : (r.store.escrow.find row.escrowId).isSome = true)
      (hunsettled : Network.unsettled r row = true)
      (h : net.settleBatch r.now row receiptsHash accepts r.hub = some hub) :
      Acts net cfg r
        { r.withStore (r.store.saveSettlement { row with status := .settled }) with hub }
  | others {msg : Msg} {call : Call} {accepts : Bool} {hub : World} (hsender : msg.sender ≠ net.hub)
      (hcall : ∀ session ∈ r.store.escrow.sessions,
        call.escrowId? ≠ some (net.escrowIdHash session.id))
      (h : transact net.hub r.now msg call accepts r.hub = some hub) :
      Acts net cfg r { r with hub }
  | block {timestamp : Nat} (hnow : r.now < timestamp) : Acts net cfg r { r with now := timestamp }

theorem acts_of_step {net : Network} {cfg : Config} {a : Act} {r r' : Rail}
    (h : net.step cfg a r = some r') : Acts net cfg r r' := by
  cases a with
  | rail m =>
      simp only [Network.step] at h
      split at h
      · rename_i hallows
        rcases Option.map_eq_some_iff.1 h with ⟨calls, hcalls, rfl⟩
        exact .rail hallows hcalls
      · cases h
  | mine hash depth accepts =>
      simp only [Network.step] at h
      split at h
      · cases h
      · rename_i tx hlookup
        obtain rfl : tx.hash = hash := Table.key_of_lookup hlookup
        split at h
        · rename_i hpending
          split at h
          · rename_i hub hexecute
            cases h
            exact .mined hlookup hpending hexecute
          · cases h
            exact .reverted hlookup hpending
        · cases h
  | mineClosing hash depth accepts =>
      simp only [Network.step] at h
      split at h
      · cases h
      · rename_i tx hlookup
        obtain rfl : tx.hash = hash := Table.key_of_lookup hlookup
        split at h
        · rename_i hpending
          split at h
          · rename_i hub hclose
            cases h
            exact .minedClosing hlookup hclose
          · cases h
            exact .revertedClosing hlookup hpending
        · cases h
  | settle row receiptsHash accepts =>
      simp only [Network.step] at h
      split at h
      · rename_i hok
        rcases Option.map_eq_some_iff.1 h with ⟨hub, hsettle, rfl⟩
        exact .settled (List.isEmpty_iff.1 hok.1) hok.2.1 hok.2.2 hsettle
      · cases h
  | others msg call accepts =>
      simp only [Network.step] at h
      split at h
      · rename_i hok
        rcases Option.map_eq_some_iff.1 h with ⟨hub, htransact, rfl⟩
        exact .others hok.1
          (fun session hsession => of_decide_eq_true (List.all_eq_true.1 hok.2 session hsession))
          htransact
      · cases h
  | block timestamp =>
      simp only [Network.step] at h
      split at h
      · rename_i hnow
        cases h
        exact .block hnow
      · cases h

end Hub
end PaymentRail
