import PaymentRail.Settlement.BatchedOnce

/-!
# AuditTrail — a batch can be checked against its settlement row

A batch is represented four times: as receipts, as the packed blob, as the root and the total of the
settlement row, and by the positions its receipts are attached at.  `batches_auditable` says that the
four agree, in every state any run of the scheduler reaches.
-/

namespace PaymentRail
namespace BatchScheduler

open Machine Strings Money Collections Receipts
open Settlement (SettlementId SettlementRow SettleBatchInput PackableReceipt PackableBatch lowerCased
  unpackReceiptsCompact packReceiptsCompact_eq_ok unpackReceiptsCompact_blobOf blobOf decimalColumn)

/-! ## What is computed from a chunk -/

section Computed

variable {keccak : Keccak} {chunk : List PaymentReceipt} {amounts : List Amount}

/-- `amounts` are the parsed amounts of the receipts. -/
def Parsed (chunk : List PaymentReceipt) (amounts : List Amount) : Prop :=
  List.Forall₂ (fun r a => amountFrom r.amount = .ok a) chunk amounts

theorem Parsed.map_receiptHash (h : Parsed chunk amounts) :
    (List.zipWith packable chunk amounts).map (·.receiptHash) = chunk.map (·.receiptHash) := by
  induction h with
  | nil => rfl
  | cons _ _ ih => simpa [packable] using ih

theorem batchInput_eq_ok {escrowId : Text} {input : SettleBatchInput}
    (h : batchInput keccak escrowId chunk = .ok input) :
    ∃ amounts, Parsed chunk amounts ∧ PackableBatch (List.zipWith packable chunk amounts) ∧
      merkleRoot keccak (chunk.map (·.receiptHash)) = .ok input.receiptsHash ∧
      input.totalAmount = (Amount.sum amounts).toString ∧ input.receiptCount = some chunk.length ∧
      input.packedReceipts = some (blobOf (List.zipWith packable chunk amounts)) := by
  simp only [batchInput, bind_eq_ok, pure_eq_ok, mapM_eq_ok] at h
  rcases h with ⟨amounts, hparsed, packed, hpacked, rfl⟩
  rcases packReceiptsCompact_eq_ok.1 hpacked with ⟨hbatch, root, hroot, rfl⟩
  rw [Parsed.map_receiptHash hparsed] at hroot
  exact ⟨amounts, hparsed, hbatch, hroot, rfl, rfl, rfl⟩

/-- An amount survives its column. -/
theorem amountFrom_of_decimalColumn {text : Text} {a : Amount}
    (h : decimalColumn text = a.toFixed) : amountFrom text = .ok a := by
  cases htext : amountFrom text with
  | error message =>
      have hsame : text = a.toFixed := by simpa [decimalColumn, htext] using h
      rw [hsame, Amount.amountFrom_toFixed] at htext
      cases htext
  | ok b =>
      have hfixed : b.toFixed = a.toFixed := by simpa [decimalColumn, htext] using h
      have hb := Amount.amountFrom_toFixed b
      rw [hfixed, Amount.amountFrom_toFixed] at hb
      exact hb.symm

/-! ## Rows that can be audited -/

/-- What is unpacked from the blob is the receipt, in lower case and with its amount in wei. -/
structure Unpacks (receipt : PaymentReceipt) (unpacked : PackableReceipt) : Prop where
  receiptHash : unpacked.receiptHash = toLowerCase receipt.receiptHash
  payer : unpacked.payer = toLowerCase receipt.fromAgent
  payee : unpacked.payee = toLowerCase receipt.toAgent
  amountMinor : ∃ a, amountFrom receipt.amount = .ok a ∧ unpacked.amountMinor = .bigint a.wei

/-- The row agrees with the receipts of `chunk`, and the blob with both. -/
structure Audited (keccak : Keccak) (chunk : List PaymentReceipt) (row : SettlementRow)
    (unpacked : List PackableReceipt) : Prop where
  blob : ∃ blob, row.packedReceipts = some blob ∧ unpackReceiptsCompact blob = .ok unpacked
  receipts : List.Forall₂ Unpacks chunk unpacked
  count : row.receiptCount = some unpacked.length
  root : merkleRoot keccak (unpacked.map (·.receiptHash)) = .ok row.receiptsHash
  leaves : merkleRoot keccak (chunk.map (·.receiptHash)) = .ok row.receiptsHash
  total : ∃ amounts : List Int, unpacked.map (·.amountMinor) = amounts.map .bigint ∧
    amountFrom row.totalAmount = .ok ⟨amounts.sum⟩

theorem Parsed.unpacks (h : Parsed chunk amounts)
    (hpackable : ∀ r ∈ List.zipWith packable chunk amounts, Settlement.Packable r) :
    List.Forall₂ Unpacks chunk ((List.zipWith packable chunk amounts).map lowerCased) ∧
      ((List.zipWith packable chunk amounts).map lowerCased).map (·.amountMinor) =
        (amounts.map Amount.wei).map .bigint := by
  induction h with
  | nil => exact ⟨.nil, rfl⟩
  | @cons r a chunk amounts hr _ ih =>
      rcases ih (fun r' hr' => hpackable r' (List.mem_cons_of_mem _ hr')) with ⟨hreceipts, hamounts⟩
      -- a packed amount is not negative, so nothing is cut off
      have hwei : (Settlement.amountOf (packable r a) : Int) = a.wei := by
        have hbig := (hpackable (packable r a) List.mem_cons_self).bigInt_eq.1
        simpa [packable, bigInt] using hbig.symm
      refine ⟨.cons ⟨rfl, rfl, rfl, a, hr, ?_⟩ hreceipts, ?_⟩
      · simp [lowerCased, hwei]
      · simpa [lowerCased, hwei] using hamounts

theorem hashPattern_of_packable (h : Parsed chunk amounts)
    (hbatch : PackableBatch (List.zipWith packable chunk amounts)) :
    ∀ leaf ∈ chunk.map (·.receiptHash), hashPattern leaf = true := by
  intro leaf hleaf
  rw [← h.map_receiptHash] at hleaf
  rcases List.mem_map.1 hleaf with ⟨r, hr, rfl⟩
  exact (hbatch.packable r hr).receiptHash

/-- A row whose batch was computed from `chunk` can be audited. -/
theorem Computed.audited {row : SettlementRow} (h : Computed keccak chunk row.batch) :
    (∀ leaf ∈ chunk.map (·.receiptHash), hashPattern leaf = true) ∧
      ∃ unpacked, Audited keccak chunk row unpacked := by
  rcases h with ⟨escrowId, input, hinput, hrow⟩
  rcases batchInput_eq_ok hinput with ⟨amounts, hparsed, hbatch, hroot, htotal, hcount, hblob⟩
  have hleaves := hashPattern_of_packable hparsed hbatch
  rcases hparsed.unpacks hbatch.packable with ⟨hreceipts, hamounts⟩
  have hhash : row.receiptsHash = input.receiptsHash := congrArg SettleBatchInput.receiptsHash hrow
  -- the total was written as a short text and comes back from its column with 18 places
  have hcolumn : decimalColumn row.totalAmount = (Amount.sum amounts).toFixed := by
    have hsame : decimalColumn row.totalAmount = decimalColumn input.totalAmount :=
      congrArg SettleBatchInput.totalAmount hrow
    rw [hsame, htotal]
    simp [decimalColumn, Amount.amountFrom_toString]
  have hlength : chunk.length = ((List.zipWith packable chunk amounts).map lowerCased).length :=
    hreceipts.length_eq
  refine ⟨hleaves, (List.zipWith packable chunk amounts).map lowerCased, ?_⟩
  exact
    { blob := ⟨_, (congrArg SettleBatchInput.packedReceipts hrow).trans hblob,
        unpackReceiptsCompact_blobOf hbatch⟩
      receipts := hreceipts
      count := by
        rw [← hlength]
        exact (congrArg SettleBatchInput.receiptCount hrow).trans hcount
      root := by
        -- the blob holds lower-case hashes, and the root does not see the difference
        have hlower : ((List.zipWith packable chunk amounts).map lowerCased).map (·.receiptHash) =
            (chunk.map (·.receiptHash)).map toLowerCase := by
          rw [← hparsed.map_receiptHash]
          simp [lowerCased]
        rw [hlower, merkleRoot_map_toLowerCase keccak hleaves, hhash]
        exact hroot
      leaves := by
        rw [hhash]
        exact hroot
      total := ⟨_, hamounts, by rw [← Amount.sum_eq]; exact amountFrom_of_decimalColumn hcolumn⟩ }

end Computed

/-! ## Runs -/

theorem run_invariant_any {cfg : Config} {keccak : Keccak} {as : List Action} {s : State}
    (hrun : run (step cfg keccak) as initial = some s) : Invariant False keccak s :=
  run_invariant (fun _ _ _ hinv hstep => step_invariant hinv False.elim hstep)
    (initial_invariant False keccak) hrun

/-- The row of the settlement agrees with the receipts of `chunk` and with its blob, and every receipt
attached to it is the one at its index, with an inclusion proof that leads to the root of the row. -/
def Auditable (keccak : Keccak) (s : State) (sid : SettlementId) (chunk : List PaymentReceipt) : Prop :=
  ∃ row unpacked, s.settlement.store.find sid = some row ∧ Audited keccak chunk row unpacked ∧
    ∀ r ∈ s.receipts, r.settlementId = some sid →
      ∃ (i : Nat) (c : PaymentReceipt) (proof : List Text),
        r.batchIndex = some i ∧ chunk[i]? = some c ∧ r = c.attach sid i ∧
        inclusionProof keccak s.receipts r.receiptHash (some r) =
          .ok { receiptHash := r.receiptHash, settlementId := sid, index := i
                leafCount := chunk.length, root := row.receiptsHash, proof } ∧
        verifyMerkleProof keccak r.receiptHash proof row.receiptsHash = true

/-- Batches are auditable end to end, in every state that a run of ticks, creations of receipts and
other work on settlements reaches, whichever storage operations have failed. -/
theorem batches_auditable (cfg : Config) (keccak : Keccak) (as : List Action) (s : State)
    (hrun : run (step cfg keccak) as initial = some s) :
    ∀ sid chunk, (sid, chunk) ∈ s.batches → Auditable keccak s sid chunk := by
  intro sid chunk hbatch
  have hinv := run_invariant_any hrun
  rcases hinv.base.rows sid chunk hbatch with ⟨row, hrow, hcomputed⟩
  rcases hcomputed.audited with ⟨hleaves, unpacked, haudited⟩
  refine ⟨row, unpacked, hrow, haudited, ?_⟩
  intro r hr hsid
  rcases hinv.base.ledger.whole sid chunk hbatch with hattached | ⟨hnone, _⟩
  · rcases hattached.only r hr hsid with ⟨i, c, hc, rfl⟩
    rcases inclusionProof_attached keccak hattached hinv.base.ledger.keyed hleaves hc with
      ⟨root, proof, hroot, hproof, haccepted⟩
    -- both roots are computed from the receipts of the chunk
    have hsame : root = row.receiptsHash := by
      rw [haudited.leaves] at hroot
      exact (Except.ok.inj hroot).symm
    rw [hsame] at hproof haccepted
    exact ⟨i, c, proof, rfl, hc, rfl, hproof, haccepted⟩
  -- a settlement that lost its batch has no receipts attached at all
  · exact absurd hsid (hnone r hr)

/-- Three receipts, batched by one tick, attached, and looked up behind a later receipt. -/
def threeReceipts : List Action :=
  [.create 1 0 (sampleDto 'A'), .create 2 10 (sampleDto '2'), .create 3 20 (sampleDto '3'),
    .runOnce 60000, .resume 60000 .done 1, .resume 60000 .done 0, .resume 60000 .done 0,
    .create 4 60000 (sampleDto 'A')]

def sampleChunk : List PaymentReceipt :=
  [create 1 0 (sampleDto 'A'), create 2 10 (sampleDto '2'), create 3 20 (sampleDto '3')]

theorem batches_auditable_threeReceipts :
    ∃ s, run (step sampleConfig sampleKeccak) threeReceipts initial = some s ∧
      (s.receipts.map (·.batchIndex)) = [none, some 2, some 1, some 0] ∧
      (1, sampleChunk) ∈ s.batches ∧ Auditable sampleKeccak s 1 sampleChunk := by
  have hreached : ((run (step sampleConfig sampleKeccak) threeReceipts initial).any fun s =>
      s.receipts.map (·.batchIndex) = [none, some 2, some 1, some 0] &&
        s.batches.contains (1, sampleChunk)) = true := by
    decide +kernel
  rcases (Option.any_eq_true _ _).1 hreached with ⟨s, hs, hbatches⟩
  simp only [Bool.and_eq_true, decide_eq_true_eq, List.contains_iff_mem] at hbatches
  exact ⟨s, hs, hbatches.1, hbatches.2,
    batches_auditable sampleConfig sampleKeccak threeReceipts s hs 1 sampleChunk hbatches.2⟩

end BatchScheduler
end PaymentRail
