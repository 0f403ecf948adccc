import PaymentRail.Collections.Arrange
import PaymentRail.Collections.Table
import PaymentRail.Receipts.Merkle

/-!
# ReceiptsService — receipts, their attachment to a settlement and their inclusion proofs

This module embeds `receipts/receipts.service.ts`.  A receipt waits until it is attached to a
settlement (`settlementId`) at a position (`batchIndex`); the position is what the proof of the
receipt is rebuilt from later.

- `findUnsettled`, `markSettled`, `inclusionProof` : the queries and the update of the service
- `Attached` : the receipts of a settlement are a given list, in this order
- `inclusionProof_attached` : what the proof of such a receipt reports
-/

namespace PaymentRail
namespace Receipts

open Machine Strings Collections

/-! ## Rows -/

/-- Row ids are only compared. -/
abbrev ReceiptId := Nat

/-- The columns the service and the batch scheduler read.  `amount` is the text the decimal column
gives back. -/
structure PaymentReceipt where
  id : ReceiptId
  escrowId : Text
  fromAgent : Text
  toAgent : Text
  amount : Text
  receiptHash : Text
  settlementId : Option Nat
  batchIndex : Option Nat
  createdAt : Nat
  deriving DecidableEq, Repr

structure CreateReceiptDto where
  escrowId : Text
  fromAgent : Text
  toAgent : Text
  amount : Text
  receiptHash : Text
  deriving DecidableEq, Repr

/-- The row `create` saves; its id and creation time come from the database. -/
def create (id : ReceiptId) (createdAt : Nat) (dto : CreateReceiptDto) : PaymentReceipt where
  id := id
  escrowId := dto.escrowId
  fromAgent := dto.fromAgent
  toAgent := dto.toAgent
  amount := dto.amount
  receiptHash := dto.receiptHash
  settlementId := none
  batchIndex := none
  createdAt := createdAt

/-! ## The service -/

/-- Oldest receipts that are not part of any settlement batch yet. -/
def findUnsettled (receipts : List PaymentReceipt) (limit : Nat) : List PaymentReceipt :=
  (Arrange.orderBy (fun r : PaymentReceipt => toLex (r.createdAt, r.id))
    (receipts.filter fun r => r.settlementId = none)).take limit

/-- A receipt as leaf `batchIndex` of a settlement. -/
def PaymentReceipt.attach (receipt : PaymentReceipt) (settlementId batchIndex : Nat) :
    PaymentReceipt :=
  { receipt with settlementId := some settlementId, batchIndex := some batchIndex }

/-- `manager.update(PaymentReceipt, { id }, { settlementId, batchIndex })` -/
def updateReceipt (settlementId : Nat) (receipts : List PaymentReceipt) (entry : ReceiptId × Nat) :
    List PaymentReceipt :=
  receipts.map fun r => if r.id = entry.1 then r.attach settlementId entry.2 else r

/-- Attaches receipts to their settlement; the order of `receiptIds` is the leaf order. -/
def markSettled (receipts : List PaymentReceipt) (receiptIds : List ReceiptId) (settlementId : Nat) :
    List PaymentReceipt :=
  receiptIds.zipIdx.foldl (updateReceipt settlementId) receipts

/-- `ORDER BY batchIndex, createdAt, id`, rows without an index last. -/
def leafOrder (r : PaymentReceipt) : Bool ×ₗ Nat ×ₗ Nat ×ₗ Nat :=
  toLex (r.batchIndex.isNone, toLex (r.batchIndex.getD 0, toLex (r.createdAt, r.id)))

def findBatch (receipts : List PaymentReceipt) (settlementId : Nat) : List PaymentReceipt :=
  Arrange.orderBy leafOrder (receipts.filter fun r => r.settlementId = some settlementId)

structure InclusionProof where
  receiptHash : Text
  settlementId : Nat
  index : Int
  leafCount : Nat
  root : Text
  proof : List Text
  deriving DecidableEq, Repr

/-- `findIndex`, with -1 for a row that is not there. -/
def indexIn (batch : List PaymentReceipt) (id : ReceiptId) : Int :=
  match batch.findIdx? fun row => row.id == id with
  | some i => i
  | none => -1

/-- Merkle proof that a receipt is part of the batch it was settled in.  Several rows may carry the
same hash; `found` is the one the lookup returned. -/
def inclusionProof (keccak : Keccak) (receipts : List PaymentReceipt) (receiptHash : Text)
    (found : Option PaymentReceipt) : Except String InclusionProof :=
  match found with
  | none => .error ("Receipt " ++ String.ofList receiptHash ++ " not found")
  | some receipt =>
      match receipt.settlementId with
      | none =>
          .error ("Receipt " ++ String.ofList receiptHash ++
            " is not part of a settlement batch yet")
      | some settlementId => do
          -- the tree is rebuilt from the rows of the batch; the root of the settlement is not read
          let batch := findBatch receipts settlementId
          let leaves := batch.map (·.receiptHash)
          let index := indexIn batch receipt.id
          let root ← merkleRoot keccak leaves
          let proof ← merkleProof keccak leaves index
          return { receiptHash := receipt.receiptHash, settlementId, index
                   leafCount := leaves.length, root, proof }

/-! ## Attaching -/

@[simp] theorem attach_id (r : PaymentReceipt) (sid i : Nat) : (r.attach sid i).id = r.id := rfl

@[simp] theorem attach_settlementId (r : PaymentReceipt) (sid i : Nat) :
    (r.attach sid i).settlementId = some sid := rfl

@[simp] theorem attach_batchIndex (r : PaymentReceipt) (sid i : Nat) :
    (r.attach sid i).batchIndex = some i := rfl

@[simp] theorem attach_receiptHash (r : PaymentReceipt) (sid i : Nat) :
    (r.attach sid i).receiptHash = r.receiptHash := rfl

/-- Row by row: a receipt gets its position among the ids, all others stay as they are. -/
theorem markSettled_eq_map {ids : List ReceiptId} (hnodup : ids.Nodup) (receipts : List PaymentReceipt)
    (sid : Nat) :
    markSettled receipts ids sid = receipts.map fun r =>
      match ids.idxOf? r.id with
      | some i => r.attach sid i
      | none => r := by
  -- the positions are counted from any `k` on
  have hfold : ∀ (ids : List ReceiptId) (k : Nat) (receipts : List PaymentReceipt), ids.Nodup →
      (ids.zipIdx k).foldl (updateReceipt sid) receipts = receipts.map fun r =>
        match ids.idxOf? r.id with
        | some i => r.attach sid (k + i)
        | none => r := by
    intro ids
    induction ids with
    | nil => simp
    | cons id ids ih =>
        intro k receipts hnodup
        rcases List.nodup_cons.1 hnodup with ⟨hnot, hrest⟩
        rw [List.zipIdx_cons, List.foldl_cons, ih (k + 1) _ hrest, updateReceipt, List.map_map]
        refine List.map_congr_left ?_
        intro r _
        by_cases hid : r.id = id
        -- the row is updated by the first entry and by none of the later ones
        · have hnone : ids.idxOf? id = none := List.idxOf?_eq_none_iff.2 hnot
          simp [hid, hnone, List.idxOf?_cons]
        · have hne : (id == r.id) = false := by simpa using Ne.symm hid
          cases hidx : ids.idxOf? r.id with
          | none => simp [hid, hidx, List.idxOf?_cons, hne]
          | some i => simp [hid, hidx, List.idxOf?_cons, hne, Nat.add_comm, Nat.add_left_comm]
  simpa [markSettled] using hfold ids 0 receipts hnodup

/-- The rows after an attachment. -/
theorem mem_markSettled {ids : List ReceiptId} (hnodup : ids.Nodup) {receipts : List PaymentReceipt}
    {sid : Nat} {row : PaymentReceipt} :
    row ∈ markSettled receipts ids sid ↔
      (row ∈ receipts ∧ row.id ∉ ids) ∨
        ∃ r ∈ receipts, ∃ i, ids[i]? = some r.id ∧ row = r.attach sid i := by
  rw [markSettled_eq_map hnodup]
  constructor
  · intro h
    rcases List.mem_map.1 h with ⟨r, hr, rfl⟩
    cases hidx : ids.idxOf? r.id with
    | none => exact Or.inl ⟨hr, List.idxOf?_eq_none_iff.1 hidx⟩
    | some i => exact Or.inr ⟨r, hr, i, (Arrange.idxOf?_eq_some_iff_of_nodup hnodup).1 hidx, rfl⟩
  · rintro (⟨hrow, hnot⟩ | ⟨r, hr, i, hi, rfl⟩)
    · have hnone : ids.idxOf? row.id = none := List.idxOf?_eq_none_iff.2 hnot
      exact List.mem_map.2 ⟨row, hrow, by simp [hnone]⟩
    · have hidx : ids.idxOf? r.id = some i := (Arrange.idxOf?_eq_some_iff_of_nodup hnodup).2 hi
      exact List.mem_map.2 ⟨r, hr, by simp [hidx]⟩

/-- The table keeps its ids. -/
theorem map_id_markSettled (receipts : List PaymentReceipt) (ids : List ReceiptId) (sid : Nat) :
    (markSettled receipts ids sid).map (·.id) = receipts.map (·.id) := by
  have hupdate : ∀ rows entry, (updateReceipt sid rows entry).map (·.id) = rows.map (·.id) := by
    intro rows entry
    rw [updateReceipt, List.map_map]
    refine List.map_congr_left ?_
    intro r _
    by_cases h : r.id = entry.1
    · simp [h]
    · simp [h]
  have hfold : ∀ (entries : List (ReceiptId × Nat)) (rows : List PaymentReceipt),
      (entries.foldl (updateReceipt sid) rows).map (·.id) = rows.map (·.id) := by
    intro entries
    induction entries with
    | nil => exact fun _ => rfl
    | cons entry entries ih => exact fun rows => (ih _).trans (hupdate rows entry)
  exact hfold ids.zipIdx receipts

/-- What the scan returns: receipts that wait, each once. -/
theorem mem_findUnsettled {receipts : List PaymentReceipt} {limit : Nat} {r : PaymentReceipt}
    (h : r ∈ findUnsettled receipts limit) : r ∈ receipts ∧ r.settlementId = none := by
  have hmem := Arrange.mem_orderBy.1 (List.mem_of_mem_take h)
  simpa using List.mem_filter.1 hmem

theorem nodup_findUnsettled {receipts : List PaymentReceipt}
    (hkeyed : Table.Keyed PaymentReceipt.id receipts) (limit : Nat) :
    ((findUnsettled receipts limit).map (·.id)).Nodup := by
  have hwaiting : ((receipts.filter fun r => r.settlementId = none).map (·.id)).Nodup :=
    List.Nodup.sublist (List.Sublist.map _ List.filter_sublist) hkeyed
  have hsorted : ((Arrange.orderBy (fun r : PaymentReceipt => toLex (r.createdAt, r.id))
      (receipts.filter fun r => r.settlementId = none)).map (·.id)).Nodup :=
    ((Arrange.perm_orderBy _).map PaymentReceipt.id).nodup_iff.2 hwaiting
  exact List.Nodup.sublist (List.Sublist.map _ (List.take_sublist _ _)) hsorted

/-! ## The batch of a settlement -/

/-- The receipts of a settlement are those of `chunk`, each attached at its position. -/
structure Attached (receipts : List PaymentReceipt) (sid : Nat) (chunk : List PaymentReceipt) : Prop where
  rows : ∀ (i : Nat) (c : PaymentReceipt), chunk[i]? = some c → c.attach sid i ∈ receipts
  only : ∀ r ∈ receipts, r.settlementId = some sid →
    ∃ (i : Nat) (c : PaymentReceipt), chunk[i]? = some c ∧ r = c.attach sid i

section Batch

variable {receipts : List PaymentReceipt} {sid : Nat} {chunk : List PaymentReceipt}

theorem mem_mapIdx_attach {row : PaymentReceipt} :
    row ∈ chunk.mapIdx (fun i c => c.attach sid i) ↔
      ∃ (i : Nat) (c : PaymentReceipt), chunk[i]? = some c ∧ row = c.attach sid i := by
  rw [List.mem_iff_getElem?]
  simp only [List.getElem?_mapIdx, Option.map_eq_some_iff]
  constructor
  · rintro ⟨i, c, hc, rfl⟩
    exact ⟨i, c, hc, rfl⟩
  · rintro ⟨i, c, hc, rfl⟩
    exact ⟨i, c, hc, rfl⟩

/-- The batch is read back in the order in which it was attached. -/
theorem Attached.findBatch_eq (h : Attached receipts sid chunk)
    (hkeyed : Table.Keyed PaymentReceipt.id receipts) :
    findBatch receipts sid = chunk.mapIdx fun i c => c.attach sid i := by
  -- the index alone decides the order, so creation times and ids do not matter
  have hincreasing : (chunk.mapIdx fun i c => c.attach sid i).Pairwise
      fun a b => leafOrder a < leafOrder b := by
    rw [List.pairwise_iff_getElem]
    intro i j hi hj hij
    simp only [List.getElem_mapIdx, leafOrder, attach_batchIndex, Option.isNone_some,
      Option.getD_some, Prod.Lex.toLex_lt_toLex]
    simp [hij]
  refine Arrange.orderBy_eq_of_perm ?_ hincreasing
  -- both lists are free of duplicates and have the same members
  have hrows : (receipts.filter fun r => r.settlementId = some sid).Nodup :=
    List.Nodup.sublist List.filter_sublist (List.Nodup.of_map _ hkeyed)
  have hleaves : (chunk.mapIdx fun i c => c.attach sid i).Nodup :=
    hincreasing.imp fun hlt hEq => absurd hlt (by simp [hEq])
  refine (List.perm_ext_iff_of_nodup hrows hleaves).2 ?_
  intro row
  rw [mem_mapIdx_attach, List.mem_filter, decide_eq_true_eq]
  constructor
  · rintro ⟨hrow, hsid⟩
    exact h.only row hrow hsid
  · rintro ⟨i, c, hc, rfl⟩
    exact ⟨h.rows i c hc, rfl⟩

theorem Attached.map_receiptHash (h : Attached receipts sid chunk)
    (hkeyed : Table.Keyed PaymentReceipt.id receipts) :
    (findBatch receipts sid).map (·.receiptHash) = chunk.map (·.receiptHash) := by
  rw [h.findBatch_eq hkeyed]
  refine List.ext_getElem? ?_
  intro i
  cases hc : chunk[i]? with
  | none => simp [hc]
  | some c => simp [hc]

/-- An attached receipt stands in the batch at its index. -/
theorem Attached.indexIn_eq (h : Attached receipts sid chunk)
    (hkeyed : Table.Keyed PaymentReceipt.id receipts) {i : Nat} {c : PaymentReceipt}
    (hc : chunk[i]? = some c) : indexIn (findBatch receipts sid) c.id = i := by
  have hids : ((findBatch receipts sid).map (·.id)).Nodup := by
    have hrows : ((receipts.filter fun r => r.settlementId = some sid).map (·.id)).Nodup :=
      List.Nodup.sublist (List.Sublist.map _ List.filter_sublist) hkeyed
    exact (((Arrange.perm_orderBy _).map PaymentReceipt.id).nodup_iff).2 hrows
  have hat : ((findBatch receipts sid).map (·.id))[i]? = some c.id := by
    simp [h.findBatch_eq hkeyed, hc]
  have hidx := (Arrange.idxOf?_eq_some_iff_of_nodup hids).2 hat
  have hfind : (findBatch receipts sid).findIdx? (fun row => row.id == c.id) = some i := by
    simpa [List.idxOf?, List.findIdx?_map, Function.comp_def] using hidx
  simp [indexIn, hfind]

/-- The proof of an attached receipt: its own index, the root of the batch, and siblings that the
verifier accepts. -/
theorem inclusionProof_attached (keccak : Keccak) (h : Attached receipts sid chunk)
    (hkeyed : Table.Keyed PaymentReceipt.id receipts)
    (hhashes : ∀ leaf ∈ chunk.map (·.receiptHash), hashPattern leaf = true) {i : Nat}
    {c : PaymentReceipt} (hc : chunk[i]? = some c) :
    ∃ root proof, merkleRoot keccak (chunk.map (·.receiptHash)) = .ok root ∧
      inclusionProof keccak receipts c.receiptHash (some (c.attach sid i)) =
        .ok { receiptHash := c.receiptHash, settlementId := sid, index := i
              leafCount := chunk.length, root, proof } ∧
      verifyMerkleProof keccak c.receiptHash proof root = true := by
  have hleaf : (chunk.map (·.receiptHash))[i]? = some c.receiptHash := by simp [hc]
  rcases List.getElem?_eq_some_iff.1 hleaf with ⟨hi, hget⟩
  rcases merkleProof_accepted keccak hhashes hi with ⟨proof, root, hproof, hroot, haccept⟩
  rw [hget] at haccept
  refine ⟨root, proof, hroot, ?_, haccept⟩
  have hindex := h.indexIn_eq hkeyed hc
  have hleaves := h.map_receiptHash hkeyed
  simp only [inclusionProof, attach_settlementId, attach_id, attach_receiptHash, hindex, hleaves,
    hroot, hproof, ok_bind, List.length_map]
  rfl

end Batch

end Receipts
end PaymentRail
