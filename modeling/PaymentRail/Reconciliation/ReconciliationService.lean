import Mathlib.Algebra.BigOperators.Ring.Finset
import PaymentRail.Contracts.EscrowHubSafety
import PaymentRail.Refunds.RefundsService

/-!
# ReconciliationService — the ledger of the rail against the hub

This module embeds `reconciliation/reconciliation.service.ts`.  A run reads the open sessions, oldest
first and at most `batchSize` of them, compares each with its escrow on the hub, and compares the
balance of the hub with what all of them are owed, provided that none was left out.

* The decimal columns hold an `Amount` and are read as the text `toFixed`.
* A read from the chain may fail; a `snapshot` answers every read from one state of the hub.
* The id of a session is hashed to the key of its escrow, `keccak256(toUtf8Bytes(id))`.

The verdict is exact (`sessionReports_eq_nil`, `compare_snapshot`).  For a hub that has got where it
is by its own functions, a shortfall is only ever the sum of errors in single sessions
(`locked_le_balance`).
-/

namespace PaymentRail
namespace Reconciliation

open Machine Strings Money Collections Collections.Arrange
open Escrow (SessionId Time EscrowSession)
open Refunds (SettlementRow)
open Contracts (Bytes32 World heldTotal)

/-! ## Rows -/

inductive ReconciliationStatus where
  | ok
  | mismatch
  | skipped
  | failed
  deriving DecidableEq, Repr

inductive MismatchKind where
  | missingOnChain
  | inactiveOnChain
  | depositMismatch
  | spentMismatch
  | hubBalanceShortfall
  deriving DecidableEq, Repr

structure ReconciliationMismatch where
  /-- `none` for findings about the whole hub. -/
  escrowId : Option SessionId
  kind : MismatchKind
  ledger : Text
  onChain : Text
  deriving DecidableEq, Repr

structure ReconciliationRun where
  status : ReconciliationStatus
  checked : Nat
  mismatches : Nat
  details : List ReconciliationMismatch
  ledgerLocked : Option Text
  onChainBalance : Option Text
  error : Option String
  startedAt : Time
  finishedAt : Option Time
  deriving DecidableEq, Repr

/-- The tables that a run reads. -/
structure Ledger where
  sessions : List EscrowSession
  settlements : List SettlementRow
  keyed : Table.Keyed EscrowSession.id sessions

/-- The calls to the chain, each of which may fail. -/
structure Provider where
  escrows : Bytes32 → Except String Contracts.EscrowSession
  getBalance : Except String Nat

/-- All reads see one state of the hub. -/
def snapshot (hub : World) : Provider where
  escrows key := .ok (hub.escrows key)
  getBalance := .ok hub.balance

/-! ## Queries -/

namespace Ledger

/-- `where: { status: OPEN }` -/
def openSessions (ledger : Ledger) : List EscrowSession :=
  ledger.sessions.filter fun session => session.status = .open

/-- The rows of `findAndCount`; the count is that of all open sessions. -/
def scanned (ledger : Ledger) (batchSize : Nat) : List EscrowSession :=
  (orderBy EscrowSession.createdAt ledger.openSessions).take batchSize

/-- `where: { escrowId: In(escrowIds), status: SETTLED }` -/
def settledRows (ledger : Ledger) (escrowIds : List SessionId) : List SettlementRow :=
  ledger.settlements.filter fun row => row.escrowId ∈ escrowIds ∧ row.status = .settled

end Ledger

/-- `Map<string, bigint>` -/
abbrev Totals := List (SessionId × Int)

namespace Totals

/-- `totals.get(id) ?? 0n` -/
def amount (totals : Totals) (id : SessionId) : Int :=
  ((Table.lookup Prod.fst totals id).map Prod.snd).getD 0

def set (totals : Totals) (id : SessionId) (wei : Int) : Totals :=
  Table.put Prod.fst totals (id, wei)

/-- One round of the loop of `settledByEscrow`. -/
def add (totals : Totals) (row : SettlementRow) : Except String Totals := do
  let total ← amountFrom row.totalAmount.toFixed
  return totals.set row.escrowId (totals.amount row.escrowId + total.wei)

end Totals

def settledByEscrow (ledger : Ledger) (escrowIds : List SessionId) : Except String Totals :=
  if escrowIds = [] then .ok [] else (ledger.settledRows escrowIds).foldlM Totals.add []

/-! ## Comparing -/

def report (escrowId : Option SessionId) (kind : MismatchKind) (ledger chain : Int) :
    ReconciliationMismatch where
  escrowId := escrowId
  kind := kind
  ledger := (Amount.fromWei ledger).toString
  onChain := (Amount.fromWei chain).toString

/-- What is reported about one session. -/
def sessionReports (id : SessionId) (deposit spent : Int) (onChain : Contracts.EscrowSession) :
    List ReconciliationMismatch :=
  if onChain.createdAt = 0 then
    -- the loop goes on with the next session
    [report (some id) .missingOnChain deposit 0]
  else
    (if onChain.active = false then
      [report (some id) .inactiveOnChain (deposit - spent) 0] else []) ++
    (if (onChain.deposit : Int) ≠ deposit then
      [report (some id) .depositMismatch deposit onChain.deposit] else []) ++
    (if (onChain.spent : Int) ≠ spent then
      [report (some id) .spentMismatch spent onChain.spent] else [])

/-- The variables of the loop. -/
structure Scan where
  mismatches : List ReconciliationMismatch
  locked : Int
  deriving DecidableEq, Repr

section Compare

variable (escrowIdHash : SessionId → Bytes32)

/-- One round of the loop over the open sessions. -/
def compareSession (provider : Provider) (settled : Totals) (scan : Scan) (session : EscrowSession) :
    Except String Scan := do
  let deposit ← amountFrom session.depositAmount.toFixed
  let released ← amountFrom session.releasedAmount.toFixed
  let spent := settled.amount session.id + released.wei
  let onChain ← provider.escrows (escrowIdHash session.id)
  return { mismatches := scan.mismatches ++ sessionReports session.id deposit.wei spent onChain
           locked := scan.locked + if spent < deposit.wei then deposit.wei - spent else 0 }

def scanSessions (provider : Provider) (ledger : Ledger) (sessions : List EscrowSession) :
    Except String Scan := do
  let settled ← settledByEscrow ledger (sessions.map (·.id))
  sessions.foldlM (compareSession escrowIdHash provider settled) { mismatches := [], locked := 0 }

/-- Writes its findings on `run` as it goes, so that they are kept when a later read fails. -/
def compare (provider : Provider) (batchSize : Nat) (ledger : Ledger) (run : ReconciliationRun) :
    ReconciliationRun × Except String (List ReconciliationMismatch) :=
  let «open» := ledger.scanned batchSize
  let totalOpen := ledger.openSessions.length
  match scanSessions escrowIdHash provider ledger «open» with
  | .error reason => (run, .error reason)
  | .ok scan =>
      let run :=
        { run with
          checked := «open».length
          ledgerLocked := some (Amount.fromWei scan.locked).toString }
      match provider.getBalance with
      | .error reason => (run, .error reason)
      | .ok balance =>
          ({ run with onChainBalance := some (Amount.fromWei balance).toString },
            .ok (scan.mismatches ++
              -- only meaningful when no open session was left out of the sum
              if totalOpen ≤ «open».length ∧ (balance : Int) < scan.locked then
                [report none .hubBalanceShortfall scan.locked balance]
              else
                []))

end Compare

/-- `MAX_STORED_MISMATCHES` -/
def maxStoredMismatches : Nat := 100

def finish (run : ReconciliationRun) (status : ReconciliationStatus) (error : Option String)
    (finishedAt : Time) : ReconciliationRun :=
  { run with status, error, finishedAt := some finishedAt }

/-- `this.runs.create(…)` -/
def ReconciliationRun.create (now : Time) : ReconciliationRun where
  status := .ok
  checked := 0
  mismatches := 0
  details := []
  ledgerLocked := none
  onChainBalance := none
  error := none
  startedAt := now
  finishedAt := none

/-- A run, given whether one is in progress and whether the hub's address is configured. -/
def run (escrowIdHash : SessionId → Bytes32) (running configured : Bool) (provider : Provider)
    (batchSize : Nat) (ledger : Ledger) (now finishedAt : Time) : ReconciliationRun :=
  if running = true then
    finish (.create now) .skipped (some "previous run still in progress") finishedAt
  else if configured = false then
    finish (.create now) .skipped (some "ESCROW_HUB_ADDRESS is not configured") finishedAt
  else
    match compare escrowIdHash provider batchSize ledger (.create now) with
    -- an unreachable RPC is not a mismatch
    | (run, .error reason) => finish run .failed (some reason) finishedAt
    | (run, .ok mismatches) =>
        finish
          { run with
            mismatches := mismatches.length
            details := mismatches.take maxStoredMismatches }
          (if mismatches.length = 0 then .ok else .mismatch) none finishedAt

/-! ## What the ledger says -/

namespace Ledger

/-- The settled settlements and the partial releases of a session. -/
def spent (ledger : Ledger) (session : EscrowSession) : Int :=
  ((ledger.settlements.filter fun row => row.escrowId = session.id ∧ row.status = .settled).map
    (·.totalAmount.wei)).sum + session.releasedAmount.wei

/-- What a session is still owed. -/
def owed (ledger : Ledger) (session : EscrowSession) : Int :=
  max 0 (session.depositAmount.wei - ledger.spent session)

end Ledger

/-- The hub has the session as the ledger has it. -/
structure Agrees (ledger : Ledger) (session : EscrowSession) (onChain : Contracts.EscrowSession) :
    Prop where
  created : onChain.createdAt ≠ 0
  active : onChain.active = true
  deposit : (onChain.deposit : Int) = session.depositAmount.wei
  spent : (onChain.spent : Int) = ledger.spent session

/-! ## Totals of settlements -/

namespace Totals

theorem amount_set (totals : Totals) (id k : SessionId) (wei : Int) :
    (totals.set id wei).amount k = if id = k then wei else totals.amount k := by
  by_cases hid : id = k
  · subst hid
    have hfound : Table.lookup Prod.fst (totals.set id wei) id = some (id, wei) :=
      Table.lookup_put_self totals (id, wei)
    rw [amount, hfound, if_pos rfl]
    rfl
  · rw [amount, set, Table.lookup_put_of_ne totals (id, wei) hid, if_neg hid]
    rfl

/-- The loop adds up the rows of each escrow. -/
theorem foldlM_add (rows : List SettlementRow) (totals : Totals) :
    ∃ totals', rows.foldlM add totals = .ok totals' ∧
      ∀ id, totals'.amount id = totals.amount id +
        ((rows.filter fun row => row.escrowId = id).map (·.totalAmount.wei)).sum := by
  induction rows generalizing totals with
  | nil =>
      refine ⟨totals, rfl, ?_⟩
      intro id
      simp
  | cons row rows ih =>
      have hrow : totals.add row =
          .ok (totals.set row.escrowId (totals.amount row.escrowId + row.totalAmount.wei)) := by
        rw [add, Amount.amountFrom_toFixed]
        rfl
      rcases ih (totals.set row.escrowId (totals.amount row.escrowId + row.totalAmount.wei)) with
        ⟨totals', hrest, hamount⟩
      refine ⟨totals', by rw [List.foldlM_cons, hrow, ok_bind, hrest], ?_⟩
      intro id
      rw [hamount id, amount_set]
      by_cases hid : row.escrowId = id
      · have hkeep : (row :: rows).filter (fun row => row.escrowId = id) =
            row :: rows.filter fun row => row.escrowId = id :=
          List.filter_cons_of_pos (by simpa using hid)
        rw [if_pos hid, hid, hkeep, List.map_cons, List.sum_cons, add_assoc]
      · rw [if_neg hid, List.filter_cons_of_neg (by simpa using hid)]

end Totals

/-- Every id that was asked for gets the sum of its settled rows. -/
theorem settledByEscrow_spec (ledger : Ledger) (sessions : List EscrowSession) :
    ∃ totals, settledByEscrow ledger (sessions.map (·.id)) = .ok totals ∧
      ∀ session ∈ sessions,
        totals.amount session.id + session.releasedAmount.wei = ledger.spent session := by
  by_cases hids : sessions.map (·.id) = []
  · refine ⟨[], if_pos hids, ?_⟩
    intro session hsession
    rw [List.map_eq_nil_iff.1 hids] at hsession
    cases hsession
  · rcases Totals.foldlM_add (ledger.settledRows (sessions.map (·.id))) [] with
      ⟨totals, hloop, hamount⟩
    refine ⟨totals, by rw [settledByEscrow, if_neg hids, hloop], ?_⟩
    intro session hsession
    have hmem : session.id ∈ sessions.map (·.id) := List.mem_map_of_mem hsession
    have hzero : Totals.amount [] session.id = 0 := rfl
    rw [hamount, hzero, zero_add, Ledger.settledRows, List.filter_filter, Ledger.spent]
    congr 3
    refine List.filter_congr ?_
    intro row _
    -- a row of this session has one of the ids
    by_cases hrow : row.escrowId = session.id
    · simp only [hrow, hmem, decide_true, true_and, Bool.true_and]
    · simp [hrow]

/-! ## The verdict -/

theorem sessionReports_eq_nil {ledger : Ledger} {session : EscrowSession}
    {onChain : Contracts.EscrowSession} :
    sessionReports session.id session.depositAmount.wei (ledger.spent session) onChain = [] ↔
      Agrees ledger session onChain := by
  constructor
  · intro h
    simp only [sessionReports] at h
    split at h
    · cases h
    · rename_i hcreated
      simp only [List.append_eq_nil_iff, ite_eq_right_iff, List.cons_ne_nil, imp_false,
        not_not, Bool.not_eq_false] at h
      exact ⟨hcreated, h.1.1, h.1.2, h.2⟩
  · intro h
    rw [sessionReports, if_neg h.created, if_neg (by simp [h.active]), if_neg (by simp [h.deposit]),
      if_neg (by simp [h.spent])]
    rfl

/-- A report about a session names it, and is no shortfall. -/
theorem of_mem_sessionReports {id : SessionId} {deposit spent : Int}
    {onChain : Contracts.EscrowSession} {mismatch : ReconciliationMismatch}
    (h : mismatch ∈ sessionReports id deposit spent onChain) :
    mismatch.escrowId = some id ∧ mismatch.kind ≠ .hubBalanceShortfall := by
  have hreport : ∀ kind ledger chain, kind ≠ MismatchKind.hubBalanceShortfall →
      mismatch = report (some id) kind ledger chain →
        mismatch.escrowId = some id ∧ mismatch.kind ≠ .hubBalanceShortfall := by
    rintro kind ledger chain hkind rfl
    exact ⟨rfl, hkind⟩
  simp only [sessionReports] at h
  split at h
  · exact hreport _ _ _ (by decide) (List.mem_singleton.1 h)
  · simp only [List.mem_append, List.mem_ite_nil_right, List.mem_singleton] at h
    rcases h with (⟨_, h⟩ | ⟨_, h⟩) | ⟨_, h⟩
    · exact hreport _ _ _ (by decide) h
    · exact hreport _ _ _ (by decide) h
    · exact hreport _ _ _ (by decide) h

section Compare

variable {escrowIdHash : SessionId → Bytes32} {ledger : Ledger} {hub : World}

/-- What the loop reports about a session. -/
def findings (escrowIdHash : SessionId → Bytes32) (ledger : Ledger) (hub : World)
    (session : EscrowSession) : List ReconciliationMismatch :=
  sessionReports session.id session.depositAmount.wei (ledger.spent session)
    (hub.escrows (escrowIdHash session.id))

theorem compareSession_snapshot {settled : Totals} {session : EscrowSession}
    (hsettled : settled.amount session.id + session.releasedAmount.wei = ledger.spent session)
    (scan : Scan) :
    compareSession escrowIdHash (snapshot hub) settled scan session =
      .ok { mismatches := scan.mismatches ++ findings escrowIdHash ledger hub session
            locked := scan.locked + ledger.owed session } := by
  have howed : (if ledger.spent session < session.depositAmount.wei then
      session.depositAmount.wei - ledger.spent session else 0) = ledger.owed session := by
    rw [Ledger.owed]
    split <;> omega
  rw [compareSession, Amount.amountFrom_toFixed, Amount.amountFrom_toFixed, ok_bind, ok_bind,
    hsettled, ← howed]
  rfl

theorem foldlM_compareSession {settled : Totals} (sessions : List EscrowSession)
    (hsettled : ∀ session ∈ sessions,
      settled.amount session.id + session.releasedAmount.wei = ledger.spent session)
    (scan : Scan) :
    sessions.foldlM (compareSession escrowIdHash (snapshot hub) settled) scan =
      .ok { mismatches := scan.mismatches ++ sessions.flatMap (findings escrowIdHash ledger hub)
            locked := scan.locked + (sessions.map ledger.owed).sum } := by
  induction sessions generalizing scan with
  | nil =>
      simp [pure, Except.pure]
  | cons session sessions ih =>
      rw [List.foldlM_cons, compareSession_snapshot (hsettled session List.mem_cons_self), ok_bind,
        ih fun other hother => hsettled other (List.mem_cons_of_mem session hother)]
      simp [List.append_assoc, add_assoc]

theorem scanSessions_snapshot (sessions : List EscrowSession) :
    scanSessions escrowIdHash (snapshot hub) ledger sessions =
      .ok { mismatches := sessions.flatMap (findings escrowIdHash ledger hub)
            locked := (sessions.map ledger.owed).sum } := by
  rcases settledByEscrow_spec ledger sessions with ⟨settled, hok, hsettled⟩
  rw [scanSessions, hok, ok_bind, foldlM_compareSession sessions hsettled]
  simp

/-- What a run that sees one state of the hub reports. -/
theorem compare_snapshot (batchSize : Nat) (run : ReconciliationRun) :
    (compare escrowIdHash (snapshot hub) batchSize ledger run).2 =
      .ok ((ledger.scanned batchSize).flatMap (findings escrowIdHash ledger hub) ++
        if ledger.openSessions.length ≤ (ledger.scanned batchSize).length ∧
            (hub.balance : Int) < ((ledger.scanned batchSize).map ledger.owed).sum then
          [report none .hubBalanceShortfall ((ledger.scanned batchSize).map ledger.owed).sum
            hub.balance]
        else
          []) := by
  rw [compare, scanSessions_snapshot]
  rfl

end Compare

/-- A run is `ok` only if it has compared, and found nothing. -/
theorem run_status_eq_ok {escrowIdHash : SessionId → Bytes32} {running configured : Bool}
    {provider : Provider} {batchSize : Nat} {ledger : Ledger} {now finishedAt : Time} :
    (run escrowIdHash running configured provider batchSize ledger now finishedAt).status = .ok ↔
      running = false ∧ configured = true ∧
        (compare escrowIdHash provider batchSize ledger (.create now)).2 = .ok [] := by
  cases running with
  | true => simp [run, finish]
  | false =>
      cases configured with
      | false => simp [run, finish]
      | true =>
          rcases hcompare : compare escrowIdHash provider batchSize ledger (.create now) with
            ⟨record, result⟩
          cases result with
          | error reason => simp [run, finish, hcompare]
          | ok mismatches =>
              by_cases hnil : mismatches = []
              · simp [run, finish, hcompare, hnil]
              · simp [run, finish, hcompare, hnil]

/-! ## Sessions that are scanned -/

namespace Ledger

theorem openSessions_keyed (ledger : Ledger) : Table.Keyed EscrowSession.id ledger.openSessions :=
  List.Nodup.sublist (List.filter_sublist.map _) ledger.keyed

theorem scanned_subperm (ledger : Ledger) (batchSize : Nat) :
    (ledger.scanned batchSize).Subperm ledger.openSessions :=
  (List.take_sublist batchSize _).subperm.trans (perm_orderBy ledger.openSessions).subperm

theorem scanned_keyed (ledger : Ledger) (batchSize : Nat) :
    Table.Keyed EscrowSession.id (ledger.scanned batchSize) := by
  have hperm : ((orderBy EscrowSession.createdAt ledger.openSessions).map EscrowSession.id).Perm
      (ledger.openSessions.map EscrowSession.id) := (perm_orderBy _).map _
  exact List.Nodup.sublist ((List.take_sublist batchSize _).map _)
    (hperm.nodup_iff.2 ledger.openSessions_keyed)

theorem mem_sessions_of_mem_scanned {ledger : Ledger} {batchSize : Nat} {session : EscrowSession}
    (h : session ∈ ledger.scanned batchSize) : session ∈ ledger.sessions :=
  (List.mem_filter.1 ((ledger.scanned_subperm batchSize).subset h)).1

theorem hashes_nodup (ledger : Ledger) (batchSize : Nat) {escrowIdHash : SessionId → Bytes32}
    (hinj : Set.InjOn escrowIdHash {id | ∃ session ∈ ledger.sessions, session.id = id}) :
    ((ledger.scanned batchSize).map fun session => escrowIdHash session.id).Nodup := by
  have hnodup : ((ledger.scanned batchSize).map EscrowSession.id).Nodup :=
    ledger.scanned_keyed batchSize
  have hids : ∀ id ∈ (ledger.scanned batchSize).map EscrowSession.id,
      ∃ session ∈ ledger.sessions, session.id = id := by
    intro id hid
    rcases List.mem_map.1 hid with ⟨session, hsession, hkey⟩
    exact ⟨session, mem_sessions_of_mem_scanned hsession, hkey⟩
  have hhashes := hnodup.map_on fun a ha b hb hab => hinj (hids a ha) (hids b hb) hab
  rwa [List.map_map] at hhashes

/-- The counts tell whether an open session was left out. -/
theorem all_scanned_iff (ledger : Ledger) (batchSize : Nat) :
    ledger.openSessions.length ≤ (ledger.scanned batchSize).length ↔
      ∀ session ∈ ledger.sessions, session.status = .open →
        session ∈ ledger.scanned batchSize := by
  constructor
  · intro hcount session hsession hopen
    -- as many rows as there are, all of them different
    have hperm : (ledger.scanned batchSize).Perm ledger.openSessions :=
      (ledger.scanned_subperm batchSize).perm_of_length_le hcount
    exact hperm.mem_iff.2 (List.mem_filter.2 ⟨hsession, decide_eq_true hopen⟩)
  · intro hall
    have hnodup : ledger.openSessions.Nodup := List.Nodup.of_map _ ledger.openSessions_keyed
    have hsubset : ledger.openSessions ⊆ ledger.scanned batchSize := by
      intro session hsession
      rcases List.mem_filter.1 hsession with ⟨hmem, hopen⟩
      exact hall session hmem (of_decide_eq_true hopen)
    exact (hnodup.subperm hsubset).length_le

end Ledger

/-! ## A hub that is solvent -/

/-- Where the two agree, a session is owed what its escrow holds. -/
theorem Agrees.owed_eq {ledger : Ledger} {session : EscrowSession}
    {onChain : Contracts.EscrowSession} (h : Agrees ledger session onChain) :
    ledger.owed session = (onChain.held : Int) := by
  have hdeposit := h.deposit
  have hspent := h.spent
  rw [Ledger.owed, Contracts.EscrowSession.held, if_pos h.active]
  omega

/-- Sessions that agree with a hub in a reachable state are covered by its balance. -/
theorem locked_le_balance {escrowIdHash : SessionId → Bytes32} {ledger : Ledger}
    {self owner : Contracts.Address} {funded parent delay : Nat} {s : Contracts.State}
    (hreach : Contracts.Reachable self owner funded parent delay s) {sessions : List EscrowSession}
    (hkeys : (sessions.map fun session => escrowIdHash session.id).Nodup)
    (hagree : ∀ session ∈ sessions,
      Agrees ledger session (s.world.escrows (escrowIdHash session.id))) :
    (sessions.map ledger.owed).sum ≤ s.world.balance := by
  let held : EscrowSession → Nat := fun session => (s.world.escrows (escrowIdHash session.id)).held
  have howed : sessions.map ledger.owed = (sessions.map held).map (fun n : Nat => (n : Int)) := by
    rw [List.map_map]
    exact List.map_congr_left fun session hsession => (hagree session hsession).owed_eq
  -- the escrows of different sessions are different, so none is counted twice
  have hheld : (sessions.map held).sum ≤ heldTotal s.world.escrows := by
    have h := Contracts.sum_held_le_heldTotal s.world.escrows hkeys
    rwa [List.map_map] at h
  have hbalance : heldTotal s.world.escrows ≤ s.world.balance := by
    rw [hreach.balance_eq, Nat.add_assoc]
    exact Nat.le_add_right _ _
  calc (sessions.map ledger.owed).sum
      = ((sessions.map held).sum : Nat) := by rw [howed, Nat.cast_list_sum]
    _ ≤ (heldTotal s.world.escrows : Nat) := Int.ofNat_le.2 hheld
    _ ≤ s.world.balance := Int.ofNat_le.2 hbalance

/-! ## Exact verdicts -/

/-- On one state of the hub `compare` always completes.  It reports nothing exactly if every scanned
session agrees with its escrow and, unless an open session was left out, the balance covers what they
are owed; these are the runs that are recorded as `ok`; and the balance of a hub in a reachable state is
never the only thing it reports. -/
theorem verdicts_exact (escrowIdHash : SessionId → Bytes32) (batchSize : Nat) (ledger : Ledger)
    (hub : World) (run : ReconciliationRun) :
    ∃ mismatches,
      (compare escrowIdHash (snapshot hub) batchSize ledger run).2 = .ok mismatches ∧
      (mismatches = [] ↔
        (∀ session ∈ ledger.scanned batchSize,
          Agrees ledger session (hub.escrows (escrowIdHash session.id))) ∧
        ((∀ session ∈ ledger.sessions, session.status = .open →
            session ∈ ledger.scanned batchSize) →
          ((ledger.scanned batchSize).map ledger.owed).sum ≤ hub.balance)) ∧
      (∀ now finishedAt,
        (Reconciliation.run escrowIdHash false true (snapshot hub) batchSize ledger now
          finishedAt).status = .ok ↔ mismatches = []) ∧
      ∀ (self owner : Contracts.Address) (funded parent delay : Nat) (s : Contracts.State),
        Contracts.Reachable self owner funded parent delay s → s.world = hub →
        Set.InjOn escrowIdHash {id | ∃ session ∈ ledger.sessions, session.id = id} →
        (∃ mismatch ∈ mismatches, mismatch.kind = .hubBalanceShortfall) →
          ∃ mismatch ∈ mismatches, mismatch.kind ≠ .hubBalanceShortfall ∧
            ∃ session ∈ ledger.scanned batchSize, mismatch.escrowId = some session.id := by
  refine ⟨_, compare_snapshot batchSize run, ?_, ?_, ?_⟩
  · rw [List.append_eq_nil_iff, List.flatMap_eq_nil_iff, ite_eq_right_iff]
    -- the code compares counts where the statement says that nobody is left out
    simp only [List.cons_ne_nil, imp_false, not_and, not_lt, ledger.all_scanned_iff batchSize]
    refine and_congr ?_ Iff.rfl
    exact forall₂_congr fun session _ => sessionReports_eq_nil
  · intro now finishedAt
    rw [run_status_eq_ok, compare_snapshot]
    simp only [true_and, Except.ok.injEq]
  · rintro self owner funded parent delay s hreach rfl hinj ⟨shortfall, hmem, hkind⟩
    by_cases hnone : (ledger.scanned batchSize).flatMap (findings escrowIdHash ledger s.world) = []
    · -- all sessions agree, so the shortfall would be one of the hub itself
      have hagree : ∀ session ∈ ledger.scanned batchSize,
          Agrees ledger session (s.world.escrows (escrowIdHash session.id)) :=
        fun session hsession =>
          sessionReports_eq_nil.1 (List.flatMap_eq_nil_iff.1 hnone session hsession)
      have hkeys := ledger.hashes_nodup batchSize hinj
      have hcovered := locked_le_balance hreach hkeys hagree
      rw [hnone, List.nil_append, List.mem_ite_nil_right] at hmem
      omega
    · -- somebody is reported
      rcases List.exists_mem_of_ne_nil _ hnone with ⟨mismatch, hmismatch⟩
      rcases List.mem_flatMap.1 hmismatch with ⟨session, hsession, hfound⟩
      have hreport := of_mem_sessionReports hfound
      exact ⟨mismatch, List.mem_append_left _ hmismatch, hreport.2, session, hsession, hreport.1⟩

/-- Two open sessions: the first one as it is on the hub, the second one with four times the deposit
that its escrow has. -/
def sampleLedger : Ledger where
  sessions :=
    [{ id := 5
       agentA := []
       agentB := []
       depositAmount := ⟨1000⟩
       budgetLimit := ⟨800⟩
       releasedAmount := ⟨0⟩
       verificationRequired := false
       status := .open
       ttl := 60
       createdAt := 0
       closedAt := none
       refundedAt := none },
      { id := 6
        agentA := []
        agentB := []
        depositAmount := ⟨2000⟩
        budgetLimit := ⟨400⟩
        releasedAmount := ⟨0⟩
        verificationRequired := false
        status := .open
        ttl := 60
        createdAt := 0
        closedAt := none
        refundedAt := none }]
  settlements := []
  keyed := by simp [Table.Keyed]

/-- The hub after both escrows are opened. -/
def sampleHub : Option Contracts.State :=
  Machine.run (Contracts.step 7)
    (Contracts.reentrantPayout.take 1 ++
      [.call { sender := 2, value := 500 } (.openEscrow 6 3 400 false 60)])
    (Contracts.initial 1 0 0 0)

/-- The shortfall is reported beside the second session, and the first one is not. -/
theorem verdicts_exact_sampleLedger :
    sampleHub.isSome = true ∧ ∀ s, sampleHub = some s →
      ∃ mismatches,
        (compare (Fin.ofNat _) (snapshot s.world) 200 sampleLedger (.create 0)).2 = .ok mismatches ∧
        mismatches.map (fun mismatch => (mismatch.escrowId, mismatch.kind)) =
          [(some 6, .depositMismatch), (none, .hubBalanceShortfall)] ∧
        ∃ mismatch ∈ mismatches, mismatch.kind ≠ .hubBalanceShortfall ∧
          ∃ session ∈ sampleLedger.scanned 200, mismatch.escrowId = some session.id := by
  refine ⟨by decide, ?_⟩
  intro s hs
  have hreported : sampleHub.all (fun s =>
      match (compare (Fin.ofNat _) (snapshot s.world) 200 sampleLedger (.create 0)).2 with
      | .ok mismatches => mismatches.map (fun mismatch => (mismatch.escrowId, mismatch.kind)) =
          [(some 6, .depositMismatch), (none, .hubBalanceShortfall)]
      | .error _ => false) = true := by
    decide +kernel
  have hinj : Set.InjOn (Fin.ofNat _ : SessionId → Bytes32)
      {id | ∃ session ∈ sampleLedger.sessions, session.id = id} := by
    rintro a ⟨first, hfirst, rfl⟩ b ⟨second, hsecond, rfl⟩ hhash
    rcases List.mem_pair.1 hfirst with rfl | rfl
    · rcases List.mem_pair.1 hsecond with rfl | rfl
      · rfl
      · exact absurd hhash (by decide)
    · rcases List.mem_pair.1 hsecond with rfl | rfl
      · exact absurd hhash (by decide)
      · rfl
  rcases verdicts_exact (Fin.ofNat _) 200 sampleLedger s.world (.create 0) with
    ⟨mismatches, hok, _, _, htogether⟩
  rw [hs, Option.all_some, hok] at hreported
  have hkinds := of_decide_eq_true hreported
  have hmem : (none, MismatchKind.hubBalanceShortfall) ∈
      mismatches.map fun mismatch => (mismatch.escrowId, mismatch.kind) := by
    rw [hkinds]
    simp
  rcases List.mem_map.1 hmem with ⟨mismatch, hmismatch, hpair⟩
  have hshortfall : ∃ mismatch ∈ mismatches, mismatch.kind = .hubBalanceShortfall :=
    ⟨mismatch, hmismatch, congrArg Prod.snd hpair⟩
  have hreach : Contracts.Reachable 7 1 0 0 0 s := ⟨_, hs⟩
  exact ⟨mismatches, hok, hkinds, htogether 7 1 0 0 0 s hreach rfl hinj hshortfall⟩

end Reconciliation
end PaymentRail
