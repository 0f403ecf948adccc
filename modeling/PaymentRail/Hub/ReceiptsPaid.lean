import PaymentRail.Hub.SettledTotals
import PaymentRail.Settlement.AuditTrail
import PaymentRail.Settlement.OwnEscrow

/-!
# ReceiptsPaid — from a receipt to the money on the hub

The scheduler of `BatchScheduler` on the hub of `SettledTotals`: receipts are created and batched,
batches are settled, retried and replayed, and the transactions are executed on a hub that everybody
else may use at the same time.  A run of the whole is a run of the scheduler and a run of the books
(`reaches_scheduler`, `reaches_books`), so what holds of either holds here.

`settled_receipts_backed` puts the two ends together: the receipts of an escrow that the rail shows as
settled are covered, amount by amount, by what the hub has spent from this escrow.
-/

namespace PaymentRail
namespace Hub

open Machine Strings Money Fees Collections Settlement
open Contracts (Address Bytes32 World)
open Receipts (Keccak PaymentReceipt)
open BatchScheduler (schedulerPid BatchRunResult Work)

/-! ## Receipts, settlements and the hub -/

/-- The scheduler with its receipts and settlements, the hub, and the time of the current block. -/
structure ReceiptBooks where
  scheduler : BatchScheduler.State
  hub : World
  now : Nat

inductive ReceiptAct where
  | scheduler (a : BatchScheduler.Action)
  /-- A transaction of a settlement is executed. -/
  | mine (hash : TxHash) (depth : Nat) (callee : Option (List Contracts.Action))
  /-- Anything else that happens on the hub. -/
  | others (actions : List Contracts.Action)

def ReceiptBooks.books (b : ReceiptBooks) : Books where
  rail := b.scheduler.settlement
  hub := b.hub
  now := b.now

/-- What a step of the books leaves of the scheduler: its tick and its receipts. -/
def ReceiptBooks.withBooks (b : ReceiptBooks) (books : Books) : ReceiptBooks where
  scheduler := { b.scheduler with settlement := books.rail }
  hub := books.hub
  now := books.now

namespace Chain

def startReceipts (hub : World) (now : Nat) : ReceiptBooks where
  scheduler := BatchScheduler.initial
  hub := hub
  now := now

/-- A transaction is mined by `mine` only. -/
def allowsTick (b : ReceiptBooks) : BatchScheduler.Action → Bool
  | .other a => allows b.books a
  | _ => true

def receiptStep (net : Chain) (cfg : BatchScheduler.Config) (keccak : Keccak) :
    ReceiptAct → ReceiptBooks → Option ReceiptBooks
  | .scheduler a, b =>
      if allowsTick b a = true then
        (BatchScheduler.step cfg keccak a b.scheduler).map fun scheduler => { b with scheduler }
      else
        none
  | .mine hash depth callee, b =>
      (net.step cfg.settlement (.mine hash depth callee) b.books).map b.withBooks
  | .others actions, b => (net.step cfg.settlement (.others actions) b.books).map b.withBooks

end Chain

/-! ## The settlements of the scheduler -/

section Settlements

variable {net : Chain} {cfg : BatchScheduler.Config} {keccak : Keccak} {hub : World} {now : Nat}

theorem reaches_rail {a : Settlement.Action} {rail rail' : Settlement.State}
    (hallows : Chain.allows ⟨rail, hub, now⟩ a = true)
    (h : Settlement.step cfg.settlement a rail = some rail') :
    Reaches (net.step cfg.settlement) ⟨rail, hub, now⟩ ⟨rail', hub, now⟩ := by
  refine ⟨[.rail a], run_cons_eq_some.2 ⟨⟨rail', hub, now⟩, ?_, rfl⟩⟩
  simp [Chain.step, hallows, h]

theorem reaches_refl (books : Books) : Reaches (net.step cfg.settlement) books books := ⟨[], rfl⟩

theorem reaches_settleChunk {s : BatchScheduler.State} {id : SettlementId}
    {chunk : List PaymentReceipt} {work : Work} {leave : BatchRunResult → BatchScheduler.State}
    (hleave : ∀ result, Reaches (net.step cfg.settlement) ⟨s.settlement, hub, now⟩
      ⟨(leave result).settlement, hub, now⟩) :
    Reaches (net.step cfg.settlement) ⟨s.settlement, hub, now⟩
      ⟨(s.settleChunk cfg keccak id chunk work leave).settlement, hub, now⟩ := by
  unfold BatchScheduler.State.settleChunk
  split
  · rename_i settlement hstart
    unfold BatchScheduler.State.startChunk at hstart
    split at hstart
    · exact reaches_rail rfl hstart
    · cases hstart
  · exact hleave _

/-- The loops of a tick begin at most one settlement. -/
theorem reaches_nextGroup (s : BatchScheduler.State) (id : SettlementId) (begun : Time)
    (result : BatchRunResult) (groups : List (Text × List PaymentReceipt)) :
    Reaches (net.step cfg.settlement) ⟨s.settlement, hub, now⟩
      ⟨(s.nextGroup cfg keccak id begun result groups).settlement, hub, now⟩ := by
  induction groups generalizing result with
  | nil => exact reaches_refl _
  | cons group groups ih =>
      unfold BatchScheduler.State.nextGroup
      split
      · exact ih result
      · exact reaches_settleChunk fun result => ih result

theorem reaches_nextChunk (s : BatchScheduler.State) (id : SettlementId) (work : Work) :
    Reaches (net.step cfg.settlement) ⟨s.settlement, hub, now⟩
      ⟨(s.nextChunk cfg keccak id work).settlement, hub, now⟩ := by
  unfold BatchScheduler.State.nextChunk
  split
  · exact reaches_nextGroup s id _ _ _
  · exact reaches_settleChunk fun result => reaches_nextGroup s id _ _ _

/-- Whatever the tick waits for, its answer is an answer to the settlement it has called. -/
theorem reaches_resume {s s' : BatchScheduler.State} {time : Time} {reply : Reply}
    {id : SettlementId} (h : BatchScheduler.resume cfg keccak s time reply id s.tick = some s') :
    Reaches (net.step cfg.settlement) ⟨s.settlement, hub, now⟩ ⟨s'.settlement, hub, now⟩ := by
  cases htick : s.tick with
  | idle =>
      rw [htick] at h
      cases h
  | findUnsettled begun =>
      rw [htick] at h
      cases reply with
      | done =>
          cases h
          exact reaches_nextGroup s id _ _ _
      | failed error =>
          cases h
          exact reaches_refl _
      | gas fee => cases h
      | sent hash => cases h
  | markSettled chunk sid work =>
      rw [htick] at h
      cases reply with
      | done =>
          cases h
          exact reaches_nextChunk
            { s with receipts := Receipts.markSettled s.receipts (chunk.map (·.id)) sid } id _
      | failed error =>
          cases h
          exact reaches_nextGroup s id _ _ _
      | gas fee => cases h
      | sent hash => cases h
  | settleBatch chunk sid work =>
      rw [htick] at h
      simp only [BatchScheduler.resume] at h
      split at h
      · cases h
      · rename_i p hp
        split at h
        · cases h
        · rename_i settlement hresume
          have hcall : Settlement.step cfg.settlement (.resume schedulerPid time reply) s.settlement =
              some settlement := by
            simpa [Settlement.step, hp] using hresume
          have hcalled : Reaches (net.step cfg.settlement) ⟨s.settlement, hub, now⟩
              ⟨settlement, hub, now⟩ := reaches_rail rfl hcall
          split at h
          · cases h
            exact hcalled
          · split at h
            · cases h
              exact hcalled.trans (reaches_nextGroup (s.called settlement reply p chunk sid) id _ _ _)
            · cases h
              exact hcalled

theorem reaches_tick {a : BatchScheduler.Action} {b : ReceiptBooks} {scheduler : BatchScheduler.State}
    (hallows : Chain.allowsTick b a = true)
    (h : BatchScheduler.step cfg keccak a b.scheduler = some scheduler) :
    Reaches (net.step cfg.settlement) b.books ⟨scheduler.settlement, b.hub, b.now⟩ := by
  cases a with
  | create id createdAt dto =>
      simp only [BatchScheduler.step] at h
      split at h
      · cases h
        exact reaches_refl _
      · cases h
  | runOnce begun =>
      simp only [BatchScheduler.step] at h
      split at h
      · cases h
        exact reaches_refl _
      · cases h
        exact reaches_refl _
  | resume time reply id => exact reaches_resume h
  | other a =>
      simp only [BatchScheduler.step] at h
      split at h
      · cases h
      · split at h
        · rename_i settlement hinner
          cases h
          exact reaches_rail hallows hinner
        · cases h

end Settlements

/-! ## The two sides of a run -/

section Sides

variable {net : Chain} {cfg : BatchScheduler.Config} {keccak : Keccak} {b b' : ReceiptBooks}

/-- For the scheduler, an executed transaction has got its fate, and other calls of the hub are
nothing at all. -/
theorem reaches_fated {tx : Transaction} {fate : Fate}
    (hkeyed : Table.Keyed Transaction.hash b.scheduler.settlement.store.transactions)
    (hmem : tx ∈ b.scheduler.settlement.store.transactions) (hpending : tx.fate = .pending) :
    Reaches (BatchScheduler.step cfg keccak) b.scheduler
      { b.scheduler with settlement := Chain.fated b.books tx fate } := by
  have hlookup : Table.lookup Transaction.hash b.scheduler.settlement.store.transactions tx.hash =
      some tx := Table.lookup_of_mem hkeyed hmem
  refine ⟨[.other (.evolve tx.hash fate)], run_cons_eq_some.2 ⟨_, ?_, rfl⟩⟩
  simp [BatchScheduler.step, Settlement.step, Action.pid, hlookup, hpending, Fate.canBecome,
    Chain.fated, ReceiptBooks.books]

theorem scheduler_of_step {a : ReceiptAct} (hbilled : Billed cfg.settlement.policy b.books.rail)
    (h : net.receiptStep cfg keccak a b = some b') :
    Reaches (BatchScheduler.step cfg keccak) b.scheduler b'.scheduler := by
  cases a with
  | scheduler a =>
      simp only [Chain.receiptStep] at h
      split at h
      · rcases Option.map_eq_some_iff.1 h with ⟨scheduler, hstep, rfl⟩
        exact ⟨[a], run_cons_eq_some.2 ⟨scheduler, hstep, rfl⟩⟩
      · cases h
  | mine hash depth callee =>
      rcases Option.map_eq_some_iff.1 h with ⟨books, hstep, rfl⟩
      simp only [Chain.step] at hstep
      split at hstep
      · cases hstep
      · rename_i tx hlookup
        have hmem : tx ∈ b.scheduler.settlement.store.transactions := Table.mem_of_lookup hlookup
        split at hstep
        · rename_i hpending
          split at hstep
          · cases hstep
            exact reaches_fated hbilled.store.hashes hmem hpending
          · cases hstep
            exact reaches_fated hbilled.store.hashes hmem hpending
        · cases hstep
  | others actions =>
      rcases Option.map_eq_some_iff.1 h with ⟨books, hstep, rfl⟩
      simp only [Chain.step] at hstep
      split at hstep
      · split at hstep
        · cases hstep
          exact ⟨[], rfl⟩
        · cases hstep
      · cases hstep

theorem books_of_step {a : ReceiptAct} (h : net.receiptStep cfg keccak a b = some b') :
    Reaches (net.step cfg.settlement) b.books b'.books := by
  cases a with
  | scheduler a =>
      simp only [Chain.receiptStep] at h
      split at h
      · rename_i hallows
        rcases Option.map_eq_some_iff.1 h with ⟨scheduler, hstep, rfl⟩
        exact reaches_tick hallows hstep
      · cases h
  | mine hash depth callee =>
      rcases Option.map_eq_some_iff.1 h with ⟨books, hstep, rfl⟩
      exact ⟨[_], run_cons_eq_some.2 ⟨books, hstep, rfl⟩⟩
  | others actions =>
      rcases Option.map_eq_some_iff.1 h with ⟨books, hstep, rfl⟩
      exact ⟨[_], run_cons_eq_some.2 ⟨books, hstep, rfl⟩⟩

end Sides

/-! ## Settled receipts -/

/-- The receipt is attached to a settlement that is settled. -/
def isSettled (store : Store) (r : PaymentReceipt) : Bool :=
  match r.settlementId with
  | some sid => (store.find sid).any fun row => row.status = .settled
  | none => false

/-- The settled receipts of an escrow. -/
def settledReceipts (s : BatchScheduler.State) (escrowId : Text) : List PaymentReceipt :=
  s.receipts.filter fun r => r.escrowId = escrowId ∧ isSettled s.settlement.store r = true

/-- The receipts attached to a settlement. -/
def receiptsOf (s : BatchScheduler.State) (sid : SettlementId) : List PaymentReceipt :=
  s.receipts.filter fun r => r.settlementId = some sid

def sumWei (receipts : List PaymentReceipt) : Int := (receipts.map fun r => weiOf r.amount).sum

section Receipts

variable {policy : FeePolicy} {keccak : Keccak} {s : BatchScheduler.State} {sid : SettlementId}
  {row : SettlementRow}

theorem sumWei_of_unpacks {chunk : List PaymentReceipt} {unpacked : List PackableReceipt}
    {amounts : List Int} (h : List.Forall₂ BatchScheduler.Unpacks chunk unpacked)
    (hamounts : unpacked.map (·.amountMinor) = amounts.map .bigint) : sumWei chunk = amounts.sum := by
  induction h generalizing amounts with
  | nil =>
      cases amounts with
      | nil => rfl
      | cons amount amounts => cases hamounts
  | cons hunpacks _ ih =>
      cases amounts with
      | nil => cases hamounts
      | cons amount amounts =>
          rcases List.cons.inj hamounts with ⟨hfirst, hrest⟩
          rcases hunpacks.amountMinor with ⟨a, ha, hminor⟩
          have hwei : a.wei = amount := Numeric.bigint.inj (hminor.symm.trans hfirst)
          rw [sumWei, List.map_cons, List.sum_cons, weiOf_of_ok ha, hwei, List.sum_cons]
          congr 1
          exact ih hrest

/-- A receipt that is attached stands in a batch that was attached as a whole, and agrees with its row. -/
theorem batch_of_attached (hinv : BatchScheduler.Invariant False keccak s) {r : PaymentReceipt}
    (hmem : r ∈ s.receipts) (hsid : r.settlementId = some sid) :
    ∃ chunk row unpacked, (sid, chunk) ∈ s.batches ∧ Receipts.Attached s.receipts sid chunk ∧
      s.settlement.store.find sid = some row ∧
      (∀ leaf ∈ chunk.map (·.receiptHash), Receipts.hashPattern leaf = true) ∧
      BatchScheduler.Audited keccak chunk row unpacked := by
  rcases hinv.base.ledger.owned r hmem sid hsid with ⟨chunk, hbatch⟩
  rcases hinv.base.rows sid chunk hbatch with ⟨row, hrow, hcomputed⟩
  rcases hcomputed.audited with ⟨hleaves, unpacked, haudited⟩
  rcases hinv.base.ledger.whole sid chunk hbatch with hattached | ⟨hnone, _⟩
  · exact ⟨chunk, row, unpacked, hbatch, hattached, hrow, hleaves, haudited⟩
  · exact absurd hsid (hnone r hmem)

/-- The total of a settlement that has receipts is what its receipts come to, and these are receipts
of the escrow it pays from. -/
theorem receiptsOf_total (hinv : BatchScheduler.Invariant False keccak s)
    (hsorted : BatchScheduler.Sorted s) (hrow : s.settlement.store.find sid = some row)
    (hsome : receiptsOf s sid ≠ []) :
    sumWei (receiptsOf s sid) = weiOf row.totalAmount ∧
      ∀ r ∈ receiptsOf s sid, r.escrowId = row.escrowId := by
  rcases List.exists_mem_of_ne_nil _ hsome with ⟨r, hr⟩
  rcases List.mem_filter.1 hr with ⟨hmem, hof⟩
  rcases batch_of_attached hinv hmem (of_decide_eq_true hof) with
    ⟨chunk, row', unpacked, hbatch, hattached, hrow', _, haudited⟩
  rcases hsorted.batches sid chunk hbatch with ⟨row'', hrow'', hescrow⟩
  obtain rfl : row' = row := Option.some.inj (hrow'.symm.trans hrow)
  obtain rfl : row'' = row' := Option.some.inj (hrow''.symm.trans hrow)
  rcases haudited.total with ⟨amounts, hamounts, htotal⟩
  constructor
  · have hperm : (receiptsOf s sid).Perm (chunk.mapIdx fun i c => c.attach sid i) := by
      rw [← hattached.findBatch_eq hinv.base.ledger.keyed]
      exact (Arrange.perm_orderBy _).symm
    calc sumWei (receiptsOf s sid)
        = sumWei (chunk.mapIdx fun i c => c.attach sid i) := (hperm.map _).sum_eq
      _ = sumWei chunk := by
          have hsame : (chunk.mapIdx fun i c => c.attach sid i).map (fun r => weiOf r.amount) =
              chunk.map fun r => weiOf r.amount := by
            refine List.ext_getElem? ?_
            intro i
            cases hc : chunk[i]? with
            | none => simp [hc]
            | some c => simp [hc, PaymentReceipt.attach]
          rw [sumWei, hsame, sumWei]
      _ = amounts.sum := sumWei_of_unpacks haudited.receipts hamounts
      _ = weiOf row''.totalAmount := (weiOf_of_ok htotal).symm
  · intro r' hr'
    rcases List.mem_filter.1 hr' with ⟨hmem', hof'⟩
    rcases hattached.only r' hmem' (of_decide_eq_true hof') with ⟨i, c, hc, rfl⟩
    exact hescrow c (List.mem_of_getElem? hc)

theorem receiptsOf_le (hbilled : Billed policy s.settlement)
    (hinv : BatchScheduler.Invariant False keccak s) (hsorted : BatchScheduler.Sorted s)
    (hrow : s.settlement.store.find sid = some row) :
    sumWei (receiptsOf s sid) ≤ weiOf row.totalAmount := by
  by_cases hsome : receiptsOf s sid = []
  · rw [hsome]
    exact nonneg_of_charges hbilled.store ⟨row, hrow, rfl⟩
  · exact (receiptsOf_total hinv hsorted hrow hsome).1.le

theorem isSettled_iff {r : PaymentReceipt} :
    isSettled s.settlement.store r = true ↔
      ∃ sid row, r.settlementId = some sid ∧ s.settlement.store.find sid = some row ∧
        row.status = .settled := by
  unfold isSettled
  constructor
  · intro h
    split at h
    · rename_i sid hsid
      rcases (Option.any_eq_true _ _).1 h with ⟨row, hrow, hstatus⟩
      exact ⟨sid, row, hsid, hrow, of_decide_eq_true hstatus⟩
    · cases h
  · rintro ⟨sid, row, hsid, hrow, hstatus⟩
    simp [hsid, hrow, hstatus]

/-- The settled receipts of an escrow, settlement by settlement. -/
theorem settledReceipts_le (hbilled : Billed policy s.settlement)
    (hinv : BatchScheduler.Invariant False keccak s) (hsorted : BatchScheduler.Sorted s)
    (escrowId : Text) :
    sumWei (settledReceipts s escrowId) ≤
      ((settledRows s.settlement.store escrowId).map fun row => weiOf row.totalAmount).sum := by
  have hkeyed : ((settledRows s.settlement.store escrowId).map SettlementRow.id).Nodup :=
    hbilled.store.keyed.sublist (List.filter_sublist.map _)
  have howned : ∀ r ∈ settledReceipts s escrowId,
      ∃ row ∈ settledRows s.settlement.store escrowId, r.settlementId = some row.id := by
    intro r hr
    rcases List.mem_filter.1 hr with ⟨hmem, hboth⟩
    obtain ⟨hescrow, hsettled⟩ := of_decide_eq_true hboth
    rcases isSettled_iff.1 hsettled with ⟨sid, row, hsid, hrow, hstatus⟩
    have hid : row.id = sid := Table.key_of_lookup hrow
    have hr' : r ∈ receiptsOf s sid := List.mem_filter.2 ⟨hmem, decide_eq_true hsid⟩
    have hof := (receiptsOf_total hinv hsorted hrow (List.ne_nil_of_mem hr')).2 r hr'
    refine ⟨row, List.mem_filter.2 ⟨Table.mem_of_lookup hrow, ?_⟩, by rw [hid]; exact hsid⟩
    simp [← hof, hescrow, hstatus]
  calc sumWei (settledReceipts s escrowId)
      = ((settledRows s.settlement.store escrowId).map fun row =>
          sumWei ((settledReceipts s escrowId).filter fun r => r.settlementId = some row.id)).sum :=
        sum_map_eq_sum_owners hkeyed howned
    _ ≤ ((settledRows s.settlement.store escrowId).map fun row => weiOf row.totalAmount).sum := by
        refine List.sum_le_sum ?_
        intro row hrow
        rcases List.mem_filter.1 hrow with ⟨hmem, hboth⟩
        obtain ⟨hescrow, hstatus⟩ := of_decide_eq_true hboth
        have hfind : s.settlement.store.find row.id = some row :=
          Table.lookup_of_mem hbilled.store.keyed hmem
        -- all receipts of the settlement are settled receipts of this escrow
        have hall : ((settledReceipts s escrowId).filter fun r => r.settlementId = some row.id) =
            receiptsOf s row.id := by
          rw [settledReceipts, List.filter_filter, receiptsOf]
          apply List.filter_congr
          intro r hr
          by_cases hsid : r.settlementId = some row.id
          · have hr' : r ∈ receiptsOf s row.id := List.mem_filter.2 ⟨hr, decide_eq_true hsid⟩
            have hof := (receiptsOf_total hinv hsorted hfind (List.ne_nil_of_mem hr')).2 r hr'
            have hsettled : isSettled s.settlement.store r = true :=
              isSettled_iff.2 ⟨row.id, row, hsid, hfind, hstatus⟩
            simp [hsid, hof, hescrow, hsettled]
          · simp [hsid]
        rw [hall]
        exact receiptsOf_le hbilled hinv hsorted hfind

end Receipts

/-! ## Runs -/

/-- Both sides of a state that a run reaches. -/
structure Reconciles (net : Chain) (cfg : BatchScheduler.Config) (keccak : Keccak)
    (b : ReceiptBooks) : Prop where
  covered : Covered net cfg.settlement.policy b.books
  ledger : BatchScheduler.Invariant False keccak b.scheduler
  sorted : BatchScheduler.Sorted b.scheduler

theorem step_reconciles {net : Chain} {cfg : BatchScheduler.Config} {keccak : Keccak} {a : ReceiptAct}
    {b b' : ReceiptBooks} (h : Reconciles net cfg keccak b)
    (hstep : net.receiptStep cfg keccak a b = some b') : Reconciles net cfg keccak b' := by
  have hbooks := (books_of_step hstep).invariant (fun _ _ _ ht hs => step_covered ht hs) h.covered
  have hscheduler := (scheduler_of_step h.covered.backed.billed hstep).invariant
    (P := fun s => BatchScheduler.Invariant False keccak s ∧ BatchScheduler.Sorted s)
    (fun _ _ _ ht hs => ⟨BatchScheduler.step_invariant ht.1 False.elim hs,
      BatchScheduler.step_sorted ht.1 ht.2 hs⟩) ⟨h.ledger, h.sorted⟩
  exact ⟨hbooks, hscheduler.1, hscheduler.2⟩

/-- Both sides of every state that a run on a hub in use reaches. -/
theorem reconciles_of_run {net : Chain} {cfg : BatchScheduler.Config} {keccak : Keccak}
    {owner : Address} {funded parent delay : Nat} {s : Contracts.State}
    (hhub : Contracts.Reachable net.hub owner funded parent delay s) {as : List ReceiptAct}
    {b : ReceiptBooks}
    (hrun : run (net.receiptStep cfg keccak) as (Chain.startReceipts s.world s.now) = some b) :
    Reconciles net cfg keccak b := by
  have hok := hhub.ok
  refine run_invariant (fun _ _ _ ht hstep => step_reconciles ht hstep) ?_ hrun
  exact
    { covered :=
        { backed := ⟨initial_billed cfg.settlement.policy, hok.worlds.1, hok.now,
            Int.natCast_nonneg _⟩
          copied := initial_copied
          spent := fun _ => Int.natCast_nonneg _ }
      ledger := BatchScheduler.initial_invariant False keccak
      sorted := BatchScheduler.initial_sorted }

/-- Behind a settled receipt is a mined transaction over all receipts of its settlement. -/
theorem exists_payment {net : Chain} {cfg : BatchScheduler.Config} {keccak : Keccak}
    {b : ReceiptBooks} (h : Reconciles net cfg keccak b) {escrowId : Text} {r : PaymentReceipt}
    (hr : r ∈ settledReceipts b.scheduler escrowId) :
    ∃ sid, r.settlementId = some sid ∧ ∃ tx ∈ b.scheduler.settlement.store.transactions,
      tx.settlementId = sid ∧ tx.fate.isMined = true ∧
        tx.amountWei = sumWei (receiptsOf b.scheduler sid) := by
  have hbilled := h.covered.backed.billed
  rcases List.mem_filter.1 hr with ⟨hmem, hboth⟩
  rcases isSettled_iff.1 (of_decide_eq_true hboth).2 with ⟨sid, row, hsid, hrow, hstatus⟩
  have hid : row.id = sid := Table.key_of_lookup hrow
  have hr' : r ∈ receiptsOf b.scheduler sid := List.mem_filter.2 ⟨hmem, decide_eq_true hsid⟩
  rcases paymentOf_settled (h.covered.copied.rows sid row hrow) hstatus with
    ⟨tx, htx, _, hof, hmined⟩
  rw [hid] at hof
  have hamount : tx.amountWei = weiOf row.totalAmount := by
    have hcharges := hbilled.store.sent tx htx
    rw [hof] at hcharges
    exact hcharges.unique ⟨row, hrow, rfl⟩
  refine ⟨sid, hsid, tx, htx, hof, hmined, ?_⟩
  rw [hamount]
  exact (receiptsOf_total h.ledger h.sorted hrow (List.ne_nil_of_mem hr')).1.symm

/-- In every run of receipts, ticks, attempts, retries and replays on a hub that is in use, whichever
writes fail: the settled receipts of an escrow come to at most what the hub has spent from this
escrow, and so to at most its deposit; and behind every one of them is a mined transaction over
exactly the amounts of the receipts that are attached to the same settlement. -/
theorem settled_receipts_backed {net : Chain} {cfg : BatchScheduler.Config} {keccak : Keccak}
    {owner : Address} {funded parent delay : Nat} {s : Contracts.State}
    (hhub : Contracts.Reachable net.hub owner funded parent delay s) {as : List ReceiptAct}
    {b : ReceiptBooks}
    (hrun : run (net.receiptStep cfg keccak) as (Chain.startReceipts s.world s.now) = some b)
    (escrowId : Text) :
    (let session := b.hub.escrows (net.keccak256 escrowId)
     sumWei (settledReceipts b.scheduler escrowId) ≤ (session.spent : Int) ∧
       session.spent ≤ session.deposit) ∧
      ∀ r ∈ settledReceipts b.scheduler escrowId, ∃ sid,
        r.settlementId = some sid ∧ ∃ tx ∈ b.scheduler.settlement.store.transactions,
          tx.settlementId = sid ∧ tx.fate.isMined = true ∧
            tx.amountWei = sumWei (receiptsOf b.scheduler sid) := by
  have hend := reconciles_of_run hhub hrun
  have hbilled := hend.covered.backed.billed
  have hfaithful := hend.covered.backed.faithful
  refine ⟨⟨?_, ?_⟩, ?_⟩
  · calc sumWei (settledReceipts b.scheduler escrowId)
        ≤ ((settledRows b.scheduler.settlement.store escrowId).map fun row =>
            weiOf row.totalAmount).sum := settledReceipts_le hbilled hend.ledger hend.sorted escrowId
      _ ≤ (b.scheduler.settlement.store.transactions.map
            (spentOn net b.scheduler.settlement.store (net.keccak256 escrowId))).sum :=
          settledRows_le net hbilled.store hend.covered.copied.rows escrowId
      _ ≤ (b.hub.escrows (net.keccak256 escrowId)).spent := hend.covered.spent _
  · have hspent := Contracts.spent_le hfaithful.legal (net.keccak256 escrowId)
    rw [← hfaithful.sessions] at hspent
    exact hspent.1
  · exact fun r hr => exists_payment hend hr

def sampleScheduler : BatchScheduler.Config :=
  { BatchScheduler.sampleConfig with settlement := Settlement.sampleConfig }

/-- A receipt over 1.5 is batched, paid and attached; the payee claims a stream in between. -/
def paidReceipt : List ReceiptAct :=
  [.scheduler (.create 1 0 (BatchScheduler.sampleDto 'A')), .scheduler (.runOnce 60000),
    .scheduler (.resume 60000 .done 7), .scheduler (.resume 60000 .done 0),
    .scheduler (.resume 60000 (.gas none) 0), .scheduler (.resume 60000 (.sent 100) 0),
    .scheduler (.resume 60000 .done 0),
    .mine 100 3 (some [.call { sender := 3, value := 0 } (.claimStream 1 1000000), .ret]),
    .scheduler (.resume 60000 .done 0), .scheduler (.resume 60000 .done 0),
    .scheduler (.resume 60000 .done 0), .scheduler (.resume 60000 .done 0)]

theorem settled_receipts_backed_paidReceipt :
    ∃ s b, run (Contracts.step sampleChain.hub) sampleEscrow (Contracts.initial 1 0 0 0) = some s ∧
      run (sampleChain.receiptStep sampleScheduler Receipts.sampleKeccak) paidReceipt
        (Chain.startReceipts s.world s.now) = some b ∧
      sumWei (settledReceipts b.scheduler ['e']) = 1500000000000000000 ∧
      (1500000000000000000 : Int) ≤ (b.hub.escrows (sampleChain.keccak256 ['e'])).spent := by
  have hreached : ((run (Contracts.step sampleChain.hub) sampleEscrow (Contracts.initial 1 0 0 0)).any
      fun s => (run (sampleChain.receiptStep sampleScheduler Receipts.sampleKeccak) paidReceipt
        (Chain.startReceipts s.world s.now)).any fun b =>
          sumWei (settledReceipts b.scheduler ['e']) = 1500000000000000000) = true := by
    decide +kernel
  rcases (Option.any_eq_true _ _).1 hreached with ⟨s, hs, hpaid⟩
  rcases (Option.any_eq_true _ _).1 hpaid with ⟨b, hb, hsum⟩
  have hreach : Contracts.Reachable sampleChain.hub 1 0 0 0 s := ⟨_, hs⟩
  have htotal := of_decide_eq_true hsum
  have hbacked := (settled_receipts_backed hreach hb ['e']).1.1
  rw [htotal] at hbacked
  exact ⟨s, b, hs, hb, htotal, hbacked⟩

end Hub
end PaymentRail
