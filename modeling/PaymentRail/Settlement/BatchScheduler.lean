import PaymentRail.Receipts.ReceiptsService
import PaymentRail.Settlement.BatchCalldata
import PaymentRail.Settlement.SettlementService

/-!
# BatchScheduler — grouping receipts into settlements

This module embeds `settlement/settlement-batch.scheduler.ts` on top of the machine of
`SettlementService`.  A tick is a process of its own: it scans for receipts, and for every due chunk
it calls `settleBatch`, waits for it, and attaches the receipts.  Its call of `settleBatch` is the
process `schedulerPid` of the settlement machine; everything else that machine can do (retries,
replays, settlements by hand, the chain) may happen between any two steps.

What a storage operation is answered is part of the action, so a run may let any of them fail; one
that fails has not been applied.
`batches` is no column of the source: it records for every settlement row the scheduler has written
which receipts it was written for.
-/

namespace PaymentRail
namespace BatchScheduler

open Machine Strings Money Collections Receipts
open Settlement (SettlementId SettlementRow SettleBatchInput PackableReceipt packReceiptsCompact
  Process Reply Time)

/-! ## Chunks -/

structure Config where
  windowMs : Nat
  maxReceipts : Nat
  /-- `intFromEnv` falls back to 100 below one. -/
  maxReceipts_pos : 0 < maxReceipts
  scanLimit : Nat
  settlement : Settlement.Config

structure BatchRunResult where
  ran : Bool
  scanned : Nat
  batches : Nat
  receipts : Nat
  failed : Nat
  deriving DecidableEq, Repr

def BatchRunResult.empty : BatchRunResult :=
  { ran := false, scanned := 0, batches := 0, receipts := 0, failed := 0 }

def groupByEscrow (receipts : List PaymentReceipt) : List (Text × List PaymentReceipt) :=
  Arrange.groupBy PaymentReceipt.escrowId receipts

/-- Receipts arrive ordered oldest first, so the first one decides the window. -/
def windowElapsed (cfg : Config) (receipts : List PaymentReceipt) (now : Time) : Bool :=
  match receipts with
  | [] => false
  | oldest :: _ => oldest.createdAt + cfg.windowMs ≤ now

def dueChunks (cfg : Config) (receipts : List PaymentReceipt) (now : Time) :
    List (List PaymentReceipt) :=
  (Arrange.slices cfg.maxReceipts receipts).filter fun chunk =>
    chunk.length = cfg.maxReceipts || windowElapsed cfg receipts now

def packable (receipt : PaymentReceipt) (amount : Amount) : PackableReceipt where
  receiptHash := receipt.receiptHash
  payer := receipt.fromAgent
  payee := receipt.toAgent
  amountMinor := .bigint amount.wei

/-- The part of `settleChunk` before it calls `settleBatch`. -/
def batchInput (keccak : Keccak) (escrowId : Text) (chunk : List PaymentReceipt) :
    Except String SettleBatchInput := do
  let amounts ← chunk.mapM fun receipt => amountFrom receipt.amount
  let total := Amount.sum amounts
  -- packing checks hashes and addresses; a receipt it rejects fails the whole chunk
  let packed ← packReceiptsCompact keccak (List.zipWith packable chunk amounts)
  return { escrowId, receiptsHash := packed.root, totalAmount := total.toString
           receiptCount := some chunk.length, packedReceipts := some packed.blob }

/-! ## States -/

/-- What the two loops of `runOnce` still have to do. -/
structure Work where
  now : Time
  escrowId : Text
  chunks : List (List PaymentReceipt)
  groups : List (Text × List PaymentReceipt)
  result : BatchRunResult
  deriving DecidableEq, Repr

/-- The call a tick is waiting for; `running` is set exactly while it is not idle. -/
inductive Tick where
  | idle
  | findUnsettled (now : Time)
  | settleBatch (chunk : List PaymentReceipt) (id : SettlementId) (work : Work)
  | markSettled (chunk : List PaymentReceipt) (id : SettlementId) (work : Work)
  deriving DecidableEq, Repr

structure State where
  settlement : Settlement.State
  receipts : List PaymentReceipt
  tick : Tick
  batches : List (SettlementId × List PaymentReceipt)
  /-- What the last call of `runOnce` that has ended resolved to, if it did not reject. -/
  returned : Option BatchRunResult

def initial : State where
  settlement := Settlement.initial
  receipts := []
  tick := .idle
  batches := []
  returned := none

/-- The process of the settlement machine that runs the scheduler's calls of `settleBatch`. -/
def schedulerPid : Settlement.Pid := 0

/-! ## The loops of `runOnce` -/

def BatchRunResult.fail (result : BatchRunResult) : BatchRunResult :=
  { result with failed := result.failed + 1 }

/-- `settleChunk` up to its first wait; `none` if it throws before.  The process is free, so the
settlement machine refuses the call only when `settleBatch` throws. -/
def State.startChunk (cfg : Config) (keccak : Keccak) (s : State) (id : SettlementId) (escrowId : Text)
    (chunk : List PaymentReceipt) : Option Settlement.State :=
  match batchInput keccak escrowId chunk with
  | .ok input => Settlement.step cfg.settlement (.settleBatch schedulerPid id input) s.settlement
  | .error _ => none

/-- The inner loop goes on with `chunk`; if this throws, it is left. -/
def State.settleChunk (cfg : Config) (keccak : Keccak) (s : State) (id : SettlementId)
    (chunk : List PaymentReceipt) (work : Work) (leave : BatchRunResult → State) : State :=
  match s.startChunk cfg keccak id work.escrowId chunk with
  | some settlement => { s with settlement, tick := .settleBatch chunk id work }
  | none => leave work.result.fail

/-- The outer loop goes on; the tick ends after its last group. -/
def State.nextGroup (cfg : Config) (keccak : Keccak) (s : State) (id : SettlementId) (now : Time)
    (result : BatchRunResult) : List (Text × List PaymentReceipt) → State
  | [] => { s with tick := .idle, returned := some result }
  | (escrowId, receipts) :: groups =>
      match dueChunks cfg receipts now with
      | [] => s.nextGroup cfg keccak id now result groups
      | chunk :: chunks =>
          s.settleChunk cfg keccak id chunk { now, escrowId, chunks, groups, result }
            fun result => s.nextGroup cfg keccak id now result groups

def State.nextChunk (cfg : Config) (keccak : Keccak) (s : State) (id : SettlementId) (work : Work) :
    State :=
  match work.chunks with
  | [] => s.nextGroup cfg keccak id work.now work.result work.groups
  | chunk :: chunks =>
      s.settleChunk cfg keccak id chunk { work with chunks }
        fun result => s.nextGroup cfg keccak id work.now result work.groups

/-- The catch block of the inner loop. -/
def State.leave (cfg : Config) (keccak : Keccak) (s : State) (id : SettlementId) (work : Work) : State :=
  s.nextGroup cfg keccak id work.now work.result.fail work.groups

/-! ## Steps -/

/-- The settlement row is written by this step. -/
def writesRow (reply : Reply) : Process → Bool
  | .insert _ => reply = .done
  | _ => false

/-- `settleBatch` ends with an error. -/
def rejects (cfg : Settlement.Config) (store : Settlement.Store) (reply : Reply) : Process → Bool
  | .insert _ => reply ≠ .done
  | .attempt _ now entity stage =>
      match Settlement.attemptStep cfg now entity stage reply store with
      | some (_, .thrown _) => true
      | _ => false
  | _ => false

/-- A tick goes on with the answer it was waiting for.  `id` is the id the database gives the next
settlement row, if one is written. -/
def resume (cfg : Config) (keccak : Keccak) (s : State) (now : Time) (reply : Reply)
    (id : SettlementId) : Tick → Option State
  | .idle => none
  | .findUnsettled begun =>
      match reply with
      | .done =>
          let pending := findUnsettled s.receipts cfg.scanLimit
          let result := { BatchRunResult.empty with ran := true, scanned := pending.length }
          -- from here on the receipts of the scan are used as they were read
          some (s.nextGroup cfg keccak id begun result (groupByEscrow pending))
      -- `finally` resets `running`, then the promise rejects
      | .failed _ => some { s with tick := .idle, returned := none }
      | _ => none
  | .settleBatch chunk sid work =>
      match s.settlement.process schedulerPid with
      | none => none
      | some p =>
          match Settlement.resume cfg.settlement s.settlement schedulerPid now reply p with
          | none => none
          | some settlement =>
              let batches := if writesRow reply p then (sid, chunk) :: s.batches else s.batches
              let s' := { s with settlement, batches }
              -- `settleBatch` is still waiting, has thrown, or has returned its row
              if settlement.process schedulerPid ≠ none then some s'
              else if rejects cfg.settlement s.settlement.store reply p then
                some (s'.leave cfg keccak id work)
              else
                -- attached whatever the outcome on chain was
                some { s' with tick := .markSettled chunk sid work }
  | .markSettled chunk sid work =>
      match reply with
      | .done =>
          let receipts := markSettled s.receipts (chunk.map (·.id)) sid
          let result := { work.result with
            batches := work.result.batches + 1
            receipts := work.result.receipts + chunk.length }
          some ({ s with receipts }.nextChunk cfg keccak id { work with result })
      -- the row exists, but its receipts stay unattached
      | .failed _ => some (s.leave cfg keccak id work)
      | _ => none

inductive Action where
  | create (id : ReceiptId) (createdAt : Time) (dto : CreateReceiptDto)
  | runOnce (now : Time)
  | resume (now : Time) (reply : Reply) (id : SettlementId)
  /-- Anything else that happens to the settlements. -/
  | other (a : Settlement.Action)

def step (cfg : Config) (keccak : Keccak) (a : Action) (s : State) : Option State :=
  match a with
  | .create id createdAt dto =>
      if Table.lookup PaymentReceipt.id s.receipts id = none then
        some { s with receipts := create id createdAt dto :: s.receipts }
      else
        none
  | .runOnce now =>
      -- a slow chain must not let two ticks settle the same receipts twice
      if s.tick = .idle ∧ s.settlement.paused = false then
        some { s with tick := .findUnsettled now }
      else
        some { s with returned := some BatchRunResult.empty }
  | .resume now reply id => resume cfg keccak s now reply id s.tick
  | .other a =>
      if a.pid = some schedulerPid then none
      else
        match Settlement.step cfg.settlement a s.settlement with
        | some settlement => some { s with settlement }
        | none => none

end BatchScheduler
end PaymentRail
