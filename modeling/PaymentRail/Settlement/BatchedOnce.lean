import PaymentRail.Settlement.SchedulerSafety

/-!
# BatchedOnce — a receipt is batched once, as long as no batch is lost

The settlement row, the attempt and the attachment of the receipts are three steps without a common
transaction.  If storage fails after the row was written, the catch block of `runOnce` goes on, the
receipts stay unattached and the next tick batches them again (`lost_attachment_batches_twice`).
Every other failure is harmless: `receipt_batched_once`.
-/

namespace PaymentRail
namespace BatchScheduler

open Machine Strings Money Collections Receipts
open Settlement (SettlementId SettlementRow Process Reply Time)

/-- The settlement rows whose batch includes the receipt. -/
def State.settlementsOf (s : State) (id : ReceiptId) : List SettlementRow :=
  s.settlement.store.settlements.filter fun row =>
    s.batches.any fun entry => entry.1 = row.id && entry.2.any fun r => r.id = id

/-- No storage operation of a tick fails behind the point where the settlement row is written. -/
def KeepsBatch (a : Action) (s : State) : Prop := losesBatch a s = false

instance (a : Action) (s : State) : Decidable (KeepsBatch a s) :=
  inferInstanceAs (Decidable (_ = _))

theorem run_invariant_lossless {cfg : Config} {keccak : Keccak} {as : List Action} {s : State}
    (hrun : run (guarded KeepsBatch (step cfg keccak)) as initial = some s) :
    Invariant True keccak s := by
  refine run_invariant ?_ (initial_invariant True keccak) hrun
  intro a s s' hinv hstep
  rcases guarded_eq_some.1 hstep with ⟨hok, hstep⟩
  exact step_invariant hinv (fun _ => hok) hstep

section Lossless

variable {keccak : Keccak} {s : State}

/-- The receipts of a settlement in flight still wait; all others are attached to theirs. -/
theorem Invariant.attached_or_flight (hinv : Invariant True keccak s) {sid : SettlementId}
    {chunk : List PaymentReceipt} (hmem : (sid, chunk) ∈ s.batches) :
    Attached s.receipts sid chunk ∨ s.flight = some sid := by
  rcases hinv.base.ledger.whole sid chunk hmem with hattached | ⟨_, hflight⟩
  · exact Or.inl hattached
  · exact Or.inr (hflight trivial)

/-- The batch in flight is the one the tick works on. -/
theorem Invariant.waiting_of_flight {lossless : Prop} (hinv : Invariant lossless keccak s)
    {sid : SettlementId} {chunk : List PaymentReceipt} (hmem : (sid, chunk) ∈ s.batches)
    (hflight : s.flight = some sid) : Waiting s.receipts chunk := by
  have hsame : ∀ {chunk'}, (sid, chunk') ∈ s.batches → chunk' = chunk := fun h =>
    (Prod.mk.inj (hinv.base.ledger.sids.eq_of_key h hmem rfl)).2
  have htick := hinv.tick
  unfold State.flight at hflight
  split at hflight
  · rename_i chunk' sid' work hstate
    rw [hstate] at htick
    rcases htick with ⟨hwaiting, p, hp, hcall⟩
    have hchunk := hwaiting.sublist (List.sublist_append_left chunk' work.queue)
    rw [hp] at hflight
    rcases hcall.cases with ⟨entity, rfl⟩ | ⟨begun, entity, stage, rfl, hmem', _⟩
    -- before the row is written nothing is in flight
    · cases hflight
    · cases hflight
      exact hsame hmem' ▸ hchunk
  · rename_i chunk' sid' work hstate
    cases hflight
    rw [hstate] at htick
    rcases htick with ⟨hwaiting, _, hmem', _⟩
    exact hsame hmem' ▸ hwaiting.sublist (List.sublist_append_left _ _)
  · cases hflight

/-- A receipt of an attached batch carries the id of its settlement. -/
theorem attached_row {receipts chunk : List PaymentReceipt} {sid : SettlementId}
    (h : Attached receipts sid chunk) {c : PaymentReceipt} (hc : c ∈ chunk) :
    ∃ row ∈ receipts, row.id = c.id ∧ row.settlementId = some sid := by
  rcases List.mem_iff_getElem?.1 hc with ⟨i, hi⟩
  exact ⟨c.attach sid i, h.rows i c hi, rfl, rfl⟩

/-- An attached receipt and a waiting one are different rows. -/
theorem not_attached_of_waiting {receipts chunk queue : List PaymentReceipt} {sid : SettlementId}
    (hkeyed : Table.Keyed PaymentReceipt.id receipts) (h : Attached receipts sid chunk)
    (hwaiting : Waiting receipts queue) {c q : PaymentReceipt} (hc : c ∈ chunk) (hq : q ∈ queue) :
    c.id ≠ q.id := by
  intro hid
  rcases attached_row h hc with ⟨row, hrow, hrowId, hsid⟩
  rcases hwaiting.mem q hq with ⟨hmem, hnone⟩
  have hEq : row = q := hkeyed.eq_of_key hrow hmem (hrowId.trans hid)
  rw [hEq, hnone] at hsid
  cases hsid

/-- Two batches that share a receipt are batches of the same settlement. -/
theorem Invariant.same_settlement (hinv : Invariant True keccak s) {sid sid' : SettlementId}
    {chunk chunk' : List PaymentReceipt} (hmem : (sid, chunk) ∈ s.batches)
    (hmem' : (sid', chunk') ∈ s.batches) {c c' : PaymentReceipt} (hc : c ∈ chunk) (hc' : c' ∈ chunk')
    (hid : c.id = c'.id) : sid = sid' := by
  have hkeyed := hinv.base.ledger.keyed
  rcases hinv.attached_or_flight hmem with h | h
  · rcases hinv.attached_or_flight hmem' with h' | h'
    · -- both attached: the row of the receipt names one settlement
      rcases attached_row h hc with ⟨row, hrow, hrowId, hsid⟩
      rcases attached_row h' hc' with ⟨row', hrow', hrowId', hsid'⟩
      have hEq : row = row' :=
        hkeyed.eq_of_key hrow hrow' (hrowId.trans (hid.trans hrowId'.symm))
      rw [hEq, hsid'] at hsid
      exact (Option.some.inj hsid).symm
    -- one attached, one in flight: attached receipts do not wait
    · exact absurd hid (not_attached_of_waiting hkeyed h (hinv.waiting_of_flight hmem' h') hc hc')
  · rcases hinv.attached_or_flight hmem' with h' | h'
    · exact absurd hid.symm
        (not_attached_of_waiting hkeyed h' (hinv.waiting_of_flight hmem h) hc' hc)
    -- both in flight: only one settlement is
    · exact Option.some.inj (h.symm.trans h')

end Lossless

/-- A receipt is batched once: in every run of ticks, creations of receipts and anything else that
happens to settlements, every receipt is included in the batch of at most one settlement row, if
storage fails for no tick after it has written the settlement row.  The scan and the save of the row
itself may fail at any time, and so may every operation of other processes. -/
theorem receipt_batched_once (cfg : Config) (keccak : Keccak) (as : List Action) (s : State)
    (hrun : run (guarded KeepsBatch (step cfg keccak)) as initial = some s) :
    ∀ id, (s.settlementsOf id).length ≤ 1 := by
  intro id
  have hinv := run_invariant_lossless hrun
  -- rows have unique ids, so it is enough that any two of them have the same one
  refine hinv.base.consistent.keyed.length_filter_le_one ?_
  intro row _ row' _ hrow hrow'
  simp only [List.any_eq_true, Bool.and_eq_true, decide_eq_true_eq] at hrow hrow'
  rcases hrow with ⟨entry, hentry, hsid, c, hc, hid⟩
  rcases hrow' with ⟨entry', hentry', hsid', c', hc', hid'⟩
  rw [← hsid, ← hsid']
  exact hinv.same_settlement hentry hentry' hc hc' (hid.trans hid'.symm)

theorem hundred_pos : 0 < 100 := by decide

def sampleConfig : Config where
  windowMs := 60000
  maxReceipts := 100
  maxReceipts_pos := hundred_pos
  scanLimit := 1000
  settlement :=
    { hubConfigured := false
      maxAttempts := 5
      baseDelayMs := 30000
      maxDelayMs := 3600000
      batchSize := 20
      confirmations := 1
      maxFeePerGasWei := 0
      policy := { bps := 50, minFee := 0, maxFee := none } }

def sampleDto (digit : Char) : CreateReceiptDto where
  escrowId := ['e']
  fromAgent := '0' :: 'x' :: List.replicate 40 'C'
  toAgent := '0' :: 'x' :: List.replicate 40 'd'
  amount := "1.500000000000000000".toList
  receiptHash := sampleHash digit

def connectionLost : Settlement.Failure where
  code := ""
  message := "Connection terminated unexpectedly"

/-- The first tick cannot save its row; the second one settles the receipt, and a later one the
next receipt. -/
def batchesInTurn : List Action :=
  [.create 1 0 (sampleDto 'A'), .runOnce 60000, .resume 60000 .done 1,
    .resume 60000 (.failed connectionLost) 0,
    .runOnce 65000, .resume 65000 .done 1, .resume 65000 .done 0, .resume 65000 .done 0,
    .create 2 65000 (sampleDto '2'), .runOnce 125000, .resume 125000 .done 2, .resume 125000 .done 0,
    .resume 125000 .done 0]

theorem receipt_batched_once_batchesInTurn :
    ∃ s, run (guarded KeepsBatch (step sampleConfig sampleKeccak)) batchesInTurn initial = some s ∧
      (s.settlementsOf 1).map (·.id) = [1] ∧ (s.settlementsOf 2).map (·.id) = [2] ∧
      ∀ id, (s.settlementsOf id).length ≤ 1 := by
  have hreached : ((run (guarded KeepsBatch (step sampleConfig sampleKeccak)) batchesInTurn
      initial).any fun s => (s.settlementsOf 1).map (·.id) = [1] &&
        (s.settlementsOf 2).map (·.id) = [2]) = true := by
    decide +kernel
  rcases (Option.any_eq_true _ _).1 hreached with ⟨s, hs, hbatches⟩
  simp only [Bool.and_eq_true, decide_eq_true_eq] at hbatches
  exact ⟨s, hs, hbatches.1, hbatches.2,
    receipt_batched_once sampleConfig sampleKeccak batchesInTurn s hs⟩

/-- The row of settlement 1 is written, the transaction of `markSettled` fails, and the next tick
finds the receipt again. -/
def lostAttachment : List Action :=
  [.create 1 0 (sampleDto 'A'), .runOnce 60000, .resume 60000 .done 1, .resume 60000 .done 0,
    .resume 60000 (.failed connectionLost) 0,
    .runOnce 65000, .resume 65000 .done 2, .resume 65000 .done 0, .resume 65000 .done 0]

/-- Without the condition a receipt ends up in the batches of two settlements. -/
theorem lost_attachment_batches_twice :
    ¬ ∀ (cfg : Config) (keccak : Keccak) (as : List Action) (s : State),
      run (step cfg keccak) as initial = some s → ∀ id, (s.settlementsOf id).length ≤ 1 := by
  intro hclaim
  have hreached : ((run (step sampleConfig sampleKeccak) lostAttachment initial).any fun s =>
      (s.settlementsOf 1).map (·.id) = [2, 1]) = true := by
    decide +kernel
  rcases (Option.any_eq_true _ _).1 hreached with ⟨s, hs, hbatches⟩
  have hone := hclaim sampleConfig sampleKeccak lostAttachment s hs 1
  have htwo : (s.settlementsOf 1).length = 2 := by
    simpa using congrArg List.length (of_decide_eq_true hbatches)
  omega

end BatchScheduler
end PaymentRail
