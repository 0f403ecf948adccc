import PaymentRail.Hub.ReceiptsPaid

/-!
# ProvenPaid — what an inclusion proof is worth

The rail serves an inclusion proof for each receipt that is attached to a settlement, and the hub has
emitted the root of the batch with the payment.  Whoever has such a proof can therefore ask two things:
was this receipt paid, and can anything else be passed off as part of the same payment?

`proven_receipts_paid` answers both for every state of a run on a hub that is in use, whichever writes
have failed: the root of the proof is the one of the settlement, whose mined transaction paid exactly the
receipts of the batch, and of the proofs with one sibling for each level only those of these receipts
verify.
-/

namespace PaymentRail
namespace Hub

open Machine Strings Collections Receipts
open Settlement (SettlementId SettlementRow Transaction)
open Contracts (Address)

/-! ## Proofs of one batch -/

/-- The hashes of a batch, in the order of its leaves. -/
def leavesOf (s : BatchScheduler.State) (sid : SettlementId) : List Text :=
  (findBatch s.receipts sid).map (·.receiptHash)

/-- No two of the pairs that are hashed for the batch or for this proof have the same hash. -/
def NoCollision (keccak : Keccak) (leaves : List Text) (candidate : Text) (proof : List Text) : Prop :=
  PairTree.CollisionFree (hashPair keccak)
    (PairTree.treePairs (hashPair keccak) (leaves.map toLowerCase) ++
      PairTree.foldPairs (hashPair keccak) (toLowerCase candidate) (proof.map toLowerCase))

/-- The proof that is served for a receipt verifies, and the proofs as long as it is verify for receipts
of the same settlement only. -/
structure Proves (keccak : Keccak) (s : BatchScheduler.State) (sid : SettlementId) (r : PaymentReceipt)
    (served : InclusionProof) : Prop where
  leafCount : served.leafCount = (receiptsOf s sid).length
  accepted : verifyMerkleProof keccak r.receiptHash served.proof served.root = true
  height : served.proof.length = Nat.clog 2 served.leafCount
  only : ∀ (candidate : Text) (proof : List Text), proof.length = Nat.clog 2 served.leafCount →
    NoCollision keccak (leavesOf s sid) candidate proof →
    verifyMerkleProof keccak candidate proof served.root = true →
      ∃ other ∈ receiptsOf s sid, toLowerCase other.receiptHash = toLowerCase candidate

section Batch

variable {keccak : Keccak} {receipts chunk : List PaymentReceipt} {sid : SettlementId}

/-- A proof with one sibling for each level leads from a leaf to the root, or collides. -/
theorem mem_leaves_of_accepted {leaves : List Text} {candidate root : Text} {proof : List Text}
    (hne : leaves ≠ []) (hleaves : ∀ leaf ∈ leaves, hashPattern leaf = true)
    (hroot : merkleRoot keccak leaves = .ok root) (hlength : proof.length = Nat.clog 2 leaves.length)
    (hfree : NoCollision keccak leaves candidate proof)
    (haccepted : verifyMerkleProof keccak candidate proof root = true) :
    toLowerCase candidate ∈ leaves.map toLowerCase := by
  have htop := (merkleRoot_eq_ok hleaves hne).1 hroot
  have hlower : ∀ s ∈ leaves.map toLowerCase, LowerHash s := by
    intro s hs
    rcases List.mem_map.1 hs with ⟨leaf, hleaf, rfl⟩
    exact lowerHash_toLowerCase (hleaves leaf hleaf)
  have hnode : ∀ a b, LowerHash a → LowerHash b → LowerHash (hashPair keccak a b) :=
    fun a b _ _ => lowerHash_hashPair a b
  have hrootLower : LowerHash root := PairTree.forall_mem_top hnode hlower root (by simp [htop])
  rcases verifyMerkleProof_iff.1 haccepted with ⟨_, _, _, hfold⟩
  have hends : PairTree.top (hashPair keccak) (leaves.map toLowerCase) =
      [(proof.map toLowerCase).foldl (hashPair keccak) (toLowerCase candidate)] := by
    rw [htop, hfold, hrootLower.2]
  have hmem := PairTree.mem_level_of_foldl_eq_top hfree hends
  -- as many siblings as there are levels: the walk began at the leaves
  simp only [PairTree.depth, List.length_map, hlength, Nat.sub_self, List.take_zero, List.foldl_nil]
    at hmem
  exact hmem

/-- The proof that is served has one sibling for each level. -/
theorem height_of_served (h : Attached receipts sid chunk)
    (hkeyed : Table.Keyed PaymentReceipt.id receipts)
    (hleaves : ∀ leaf ∈ chunk.map (·.receiptHash), hashPattern leaf = true) {i : Nat}
    {c : PaymentReceipt} (hc : chunk[i]? = some c) {served : InclusionProof}
    (hserved : inclusionProof keccak receipts c.receiptHash (some (c.attach sid i)) = .ok served) :
    served.proof.length = Nat.clog 2 served.leafCount := by
  have hi : i < (chunk.map (·.receiptHash)).length := by
    rw [List.length_map]
    exact (List.getElem?_eq_some_iff.1 hc).1
  simp only [inclusionProof, attach_settlementId, attach_id, attach_receiptHash,
    h.indexIn_eq hkeyed hc, h.map_receiptHash hkeyed, merkleProof_eq_ok hleaves hi] at hserved
  rcases bind_eq_ok.1 hserved with ⟨root, _, hrest⟩
  cases hrest
  calc (PairTree.path (hashPair keccak) [] ((chunk.map (·.receiptHash)).map toLowerCase) i).length
      = PairTree.depth ((chunk.map (·.receiptHash)).map toLowerCase) := PairTree.length_path _ i
    _ = Nat.clog 2 (chunk.map (·.receiptHash)).length := by rw [PairTree.depth, List.length_map]

end Batch

/-! ## Runs -/

/-- In every state of the scheduler, a receipt that is attached is served a proof from the root of its
settlement, and the proofs of that height verify for receipts of this settlement only. -/
theorem exists_served {keccak : Keccak} {s : BatchScheduler.State}
    (hinv : BatchScheduler.Invariant False keccak s) {sid : SettlementId} {r : PaymentReceipt}
    (hmem : r ∈ s.receipts) (hsid : r.settlementId = some sid) :
    ∃ row served, s.settlement.store.find sid = some row ∧
      inclusionProof keccak s.receipts r.receiptHash (some r) = .ok served ∧
      served.root = row.receiptsHash ∧ Proves keccak s sid r served := by
  have hkeyed := hinv.base.ledger.keyed
  rcases batch_of_attached hinv hmem hsid with
    ⟨chunk, row, unpacked, _, hattached, hrow, hleaves, haudited⟩
  rcases hattached.only r hmem hsid with ⟨i, c, hc, rfl⟩
  rcases inclusionProof_attached keccak hattached hkeyed hleaves hc with
    ⟨root, proof, hroot, hserved, haccepted⟩
  have hsame : root = row.receiptsHash := Except.ok.inj (hroot.symm.trans haudited.leaves)
  have hof : leavesOf s sid = chunk.map (·.receiptHash) := hattached.map_receiptHash hkeyed
  have hcount : chunk.length = (receiptsOf s sid).length := by
    have hperm : (Receipts.findBatch s.receipts sid).Perm (receiptsOf s sid) := Arrange.perm_orderBy _
    rw [← hperm.length_eq, hattached.findBatch_eq hkeyed, List.length_mapIdx]
  refine ⟨row, _, hrow, hserved, hsame, hcount, haccepted,
    height_of_served hattached hkeyed hleaves hc hserved, ?_⟩
  intro candidate other hlength hfree hverified
  have hne : chunk.map (·.receiptHash) ≠ [] :=
    List.ne_nil_of_mem (List.mem_map_of_mem (List.mem_of_getElem? hc))
  rw [hof] at hfree
  have hleaf := mem_leaves_of_accepted hne hleaves hroot (by simpa using hlength) hfree hverified
  -- the leaf is the hash of a receipt of the batch, which is attached as the others are
  rcases List.mem_map.1 hleaf with ⟨leaf, hin, hcase⟩
  rcases List.mem_map.1 hin with ⟨found, hfound, rfl⟩
  rcases List.mem_iff_getElem?.1 hfound with ⟨j, hj⟩
  refine ⟨found.attach sid j, List.mem_filter.2 ⟨hattached.rows j found hj, ?_⟩, hcase⟩
  exact decide_eq_true rfl

/-- In every run of receipts, ticks, attempts, retries and replays on a hub that is in use, whichever
writes fail: a settled receipt is served a proof from the root of its settlement, no proof of that height
verifies for anything but the receipts of the same settlement, and the mined transaction behind it paid
exactly these receipts. -/
theorem proven_receipts_paid {net : Chain} {cfg : BatchScheduler.Config} {keccak : Keccak}
    {owner : Address} {funded parent delay : Nat} {s : Contracts.State}
    (hhub : Contracts.Reachable net.hub owner funded parent delay s) {as : List ReceiptAct}
    {b : ReceiptBooks}
    (hrun : run (net.receiptStep cfg keccak) as (Chain.startReceipts s.world s.now) = some b)
    {escrowId : Text} {r : PaymentReceipt} (hr : r ∈ settledReceipts b.scheduler escrowId) :
    ∃ sid row served, r.settlementId = some sid ∧ b.scheduler.settlement.store.find sid = some row ∧
      inclusionProof keccak b.scheduler.receipts r.receiptHash (some r) = .ok served ∧
      served.root = row.receiptsHash ∧ Proves keccak b.scheduler sid r served ∧
      ∃ tx ∈ b.scheduler.settlement.store.transactions, tx.settlementId = sid ∧
        tx.fate.isMined = true ∧ tx.amountWei = sumWei (receiptsOf b.scheduler sid) := by
  have hend := reconciles_of_run hhub hrun
  rcases exists_payment hend hr with ⟨sid, hsid, tx, htx, hof, hmined, hamount⟩
  rcases exists_served hend.ledger (List.mem_of_mem_filter hr) hsid with
    ⟨row, served, hrow, hserved, hroot, hproves⟩
  exact ⟨sid, row, served, hsid, hrow, hserved, hroot, hproves, tx, htx, hof, hmined, hamount⟩

def halfDto (digit : Char) : CreateReceiptDto :=
  { BatchScheduler.sampleDto digit with amount := "0.750000000000000000".toList }

/-- Two receipts over 0.75 are batched, paid and attached. -/
def paidPair : List ReceiptAct :=
  [.scheduler (.create 1 0 (halfDto 'A')), .scheduler (.create 2 0 (halfDto '2'))] ++
    paidReceipt.drop 1

theorem proven_receipts_paid_paidPair :
    ∃ s b, run (Contracts.step sampleChain.hub) sampleEscrow (Contracts.initial 1 0 0 0) = some s ∧
      run (sampleChain.receiptStep sampleScheduler sampleKeccak) paidPair
        (Chain.startReceipts s.world s.now) = some b ∧
      ∃ r ∈ settledReceipts b.scheduler ['e'], ∃ served,
        inclusionProof sampleKeccak b.scheduler.receipts r.receiptHash (some r) = .ok served ∧
          served.proof.length = 1 ∧
          verifyMerkleProof sampleKeccak r.receiptHash served.proof served.root = true ∧
          ∃ tx ∈ b.scheduler.settlement.store.transactions, tx.fate.isMined = true := by
  have hreached : ((run (Contracts.step sampleChain.hub) sampleEscrow (Contracts.initial 1 0 0 0)).any
      fun s => (run (sampleChain.receiptStep sampleScheduler sampleKeccak) paidPair
        (Chain.startReceipts s.world s.now)).any fun b =>
          (settledReceipts b.scheduler ['e']).any fun r => r.settlementId = some 7 ∧
            (receiptsOf b.scheduler 7).length = 2) = true := by
    decide +kernel
  rcases (Option.any_eq_true _ _).1 hreached with ⟨s, hs, hpaid⟩
  rcases (Option.any_eq_true _ _).1 hpaid with ⟨b, hb, hsettled⟩
  rcases List.any_eq_true.1 hsettled with ⟨r, hr, hboth⟩
  rcases of_decide_eq_true hboth with ⟨hseven, hcount⟩
  have hreach : Contracts.Reachable sampleChain.hub 1 0 0 0 s := ⟨_, hs⟩
  rcases proven_receipts_paid hreach hb hr with
    ⟨sid, row, served, hsid, _, hserved, _, hproves, tx, htx, _, hmined, _⟩
  obtain rfl : sid = 7 := Option.some.inj (hsid.symm.trans hseven)
  refine ⟨s, b, hs, hb, r, hr, served, hserved, ?_, hproves.accepted, tx, htx, hmined⟩
  rw [hproves.height, hproves.leafCount, hcount]
  decide

end Hub
end PaymentRail
