import Mathlib.Algebra.Order.BigOperators.Group.List
import PaymentRail.Money.ExactPrinting
import PaymentRail.Settlement.FlushedChunks

/-!
# ChunkLimits — which chunks get a settlement row

A due chunk goes through three components before its settlement row is written: its amounts are read,
the codec packs its receipts, and the fee of its total is quoted.  Each of them has limits of its own
that the scheduler does not look at when it cuts the chunk.

- `Storable` : a receipt as `CreateReceiptDto` and the column of its amount let it through
- `Fits` : what the three components ask of a chunk together
- `accepted_iff` : a chunk of storable receipts gets its row exactly when it fits
-/

namespace PaymentRail
namespace BatchScheduler

open Machine Strings Money Fees Collections Receipts
open Settlement (SettlementId Packable PackableBatch PackableReceipt addressesOf packReceiptsCompact
  packReceiptsCompact_isOk_iff maxUint256 newSettlement Time)

/-! ## Stored receipts -/

/-- A text of the amount column, in wei. -/
def weiOf (amount : Text) : Int :=
  match amountFrom amount with
  | .ok a => a.wei
  | .error _ => 0

/-- A receipt that has passed the checks of `CreateReceiptDto`.  Its amount is a text that a column
`decimal(36, 18)` gives back for a value that is not negative.  Addresses begin with `0x`: the checks let
`0X` through as well, which `packReceiptsCompact` refuses. -/
structure Storable (r : PaymentReceipt) : Prop where
  receiptHash : hexPattern 64 r.receiptHash = true
  fromAgent : hexPattern 40 r.fromAgent = true
  toAgent : hexPattern 40 r.toAgent = true
  amount : ∃ wei : Nat, amountFrom r.amount = .ok ⟨wei⟩ ∧ wei < 10 ^ 36

theorem Storable.amountFrom_eq {r : PaymentReceipt} (h : Storable r) :
    amountFrom r.amount = .ok ⟨weiOf r.amount⟩ ∧ 0 ≤ weiOf r.amount ∧ weiOf r.amount < 10 ^ 36 := by
  rcases h.amount with ⟨wei, hread, hless⟩
  have hwei : weiOf r.amount = wei := by simp [weiOf, hread]
  rw [hwei]
  exact ⟨hread, Int.natCast_nonneg wei, by exact_mod_cast hless⟩

/-! ## Limits -/

/-- The sum of a chunk in wei. -/
def totalWei (chunk : List PaymentReceipt) : Int := (chunk.map fun r => weiOf r.amount).sum

/-- The addresses of a chunk, without regard to letter case. -/
def agentsOf (chunk : List PaymentReceipt) : Finset Text :=
  (chunk.flatMap fun r => [toLowerCase r.fromAgent, toLowerCase r.toAgent]).toFinset

/-- Within the limits of the codec and of the quotation. -/
structure Fits (chunk : List PaymentReceipt) : Prop where
  count : chunk.length ≤ 65535
  agents : (agentsOf chunk).card ≤ 255
  total : totalWei chunk < 10 ^ 36

/-- `settleChunk` comes to the point where the row is written: nothing throws before. -/
def Accepted (cfg : Config) (keccak : Keccak) (escrowId : Text) (chunk : List PaymentReceipt) : Prop :=
  ∃ input, batchInput keccak escrowId chunk = .ok input ∧
    ∀ id, ∃ row, newSettlement cfg.settlement id input = .ok row

/-! ## Reading and packing -/

section Packing

variable {chunk : List PaymentReceipt}

/-- The receipts of a chunk as the codec gets them. -/
def packables (chunk : List PaymentReceipt) : List PackableReceipt :=
  chunk.map fun r => packable r ⟨weiOf r.amount⟩

theorem amounts_eq (h : ∀ r ∈ chunk, Storable r) :
    (chunk.mapM fun r => amountFrom r.amount) =
      .ok (chunk.map fun r => (⟨weiOf r.amount⟩ : Amount)) := by
  rw [mapM_eq_ok, List.forall₂_map_right_iff, List.forall₂_same]
  exact fun r hr => (h r hr).amountFrom_eq.1

theorem addressesOf_packables (chunk : List PaymentReceipt) :
    addressesOf (packables chunk) = agentsOf chunk := by
  rw [addressesOf, packables, agentsOf, List.flatMap_map]
  rfl

/-- The amount of one receipt is always small enough for the codec. -/
theorem packable_of_storable {r : PaymentReceipt} (h : Storable r) :
    Packable (packable r ⟨weiOf r.amount⟩) where
  receiptHash := h.receiptHash
  payer := h.fromAgent
  payee := h.toAgent
  amountMinor := by
    rcases h.amount with ⟨wei, hread, hless⟩
    refine ⟨wei, ?_, hless.le.trans (by decide)⟩
    simp [packable, weiOf, hread, bigInt]

theorem packableBatch_packables (h : ∀ r ∈ chunk, Storable r) :
    PackableBatch (packables chunk) ↔ chunk.length ≤ 65535 ∧ (agentsOf chunk).card ≤ 255 := by
  constructor
  · intro hbatch
    have hcount := hbatch.count
    have haddresses := hbatch.addresses
    rw [packables, List.length_map] at hcount
    rw [addressesOf_packables] at haddresses
    exact ⟨hcount, haddresses⟩
  · rintro ⟨hcount, hagents⟩
    refine ⟨?_, ?_, ?_⟩
    · rw [packables, List.length_map]
      exact hcount
    · intro receipt hmem
      rcases List.mem_map.1 hmem with ⟨r, hr, rfl⟩
      exact packable_of_storable (h r hr)
    · rw [addressesOf_packables]
      exact hagents

/-- Forming the batch fails only where packing does; its total is the sum of the chunk. -/
theorem batchInput_of_storable (keccak : Keccak) (escrowId : Text) (h : ∀ r ∈ chunk, Storable r)
    {input : Settlement.SettleBatchInput} :
    batchInput keccak escrowId chunk = .ok input ↔
      ∃ packed, packReceiptsCompact keccak (packables chunk) = .ok packed ∧
        input = { escrowId, receiptsHash := packed.root
                  totalAmount := (Amount.fromWei (totalWei chunk)).toString
                  receiptCount := some chunk.length, packedReceipts := some packed.blob } := by
  have hzip : List.zipWith packable chunk (chunk.map fun r => (⟨weiOf r.amount⟩ : Amount)) =
      packables chunk := by
    rw [List.zipWith_map_right, List.zipWith_self, packables]
  have htotal : Amount.sum (chunk.map fun r => (⟨weiOf r.amount⟩ : Amount)) =
      Amount.fromWei (totalWei chunk) := by
    rw [Amount.sum_eq, totalWei, List.map_map]
    rfl
  simp only [batchInput, amounts_eq h, ok_bind, hzip, htotal, bind_eq_ok, pure_eq_ok]
  refine exists_congr ?_
  intro packed
  exact and_congr_right fun _ => eq_comm

end Packing

/-! ## Quoting -/

/-- A text with more than 18 digits before the point is not an amount of a quotation. -/
theorem amountPattern_toString_iff {a : Amount} (hnonneg : 0 ≤ a.wei) :
    amountPattern a.toString = true ↔ a.wei < 10 ^ 36 := by
  constructor
  · intro hpattern
    have hsign : decide (a.wei < 0) = false := decide_eq_false (Int.not_lt.2 hnonneg)
    have hhead : ∀ fraction : Text, ∀ c ∈ (dotted fraction).head?, isDecDigit c = false := by
      intro fraction c hc
      by_cases hnil : fraction = []
      · simp [dotted, hnil] at hc
      · obtain rfl : '.' = c := by simpa [dotted, hnil] using hc
        decide
    rw [a.toString_eq, hsign] at hpattern
    generalize hfraction : (if stripTrailingZeros a.fractionDigits = [] then ['0']
      else stripTrailingZeros a.fractionDigits) = fraction at hpattern
    rcases takeWhile_digits (digits_toDigits (a.wei.natAbs / scale)).digits
      (hhead fraction) with ⟨htake, hdrop⟩
    have hlength : (Nat.toDigits 10 (a.wei.natAbs / scale)).length ≤ 18 := by
      simp only [minus, Bool.false_eq_true, if_false, List.nil_append] at hpattern
      rw [amountPattern, hdrop, htake] at hpattern
      by_cases hnil : fraction = []
      · simp only [hnil, dotted, if_true, List.append_nil, upTo18Digits, Bool.and_eq_true,
          decide_eq_true_eq] at hpattern
        exact hpattern.2
      · simp only [dotted, hnil, if_false, upTo18Digits, Bool.and_eq_true,
          decide_eq_true_eq] at hpattern
        exact hpattern.1.2
    have hwhole := (Nat.length_toDigits_le_iff (by decide) (by decide)).1 hlength
    rw [Nat.div_lt_iff_lt_mul (by decide)] at hwhole
    have hproduct : 10 ^ 18 * scale = 10 ^ 36 := by decide
    omega
  · intro hsmall
    have hplaces : (stripTrailingZeros a.fractionDigits).length ≤ 18 :=
      (length_stripTrailingZeros_le _).trans a.length_fractionDigits.le
    rw [a.toString_eq]
    split_ifs
    · exact amountPattern_of_small hnonneg hsmall (digits_singleton rfl).digits (by decide)
    · exact amountPattern_of_small hnonneg hsmall a.isDecDigit_strip_fractionDigits hplaces

/-- A quotation is refused only for the width of its amount. -/
theorem quote_isOk_iff (policy : FeePolicy) {wei : Int} (hnonneg : 0 ≤ wei) :
    (∃ quoted, quote policy (Amount.fromWei wei).toString = .ok quoted) ↔ wei < 10 ^ 36 := by
  have hpattern := amountPattern_toString_iff (a := Amount.fromWei wei) hnonneg
  constructor
  · rintro ⟨quoted, hquoted⟩
    rcases bind_eq_ok.1 hquoted with ⟨_, hrequired, _⟩
    exact hpattern.1 (require_eq_ok.1 hrequired)
  · intro hsmall
    -- a total that matches is read back, and its fee is computed without a further check
    have hrequired : 0 ≤ (Amount.fromWei wei).wei := hnonneg
    rw [quote, require_of (hpattern.2 hsmall), ok_bind, Amount.amountFrom_toString, ok_bind, computeFee,
      require_of hrequired, ok_bind]
    exact ⟨_, rfl⟩

/-! ## Chunks -/

theorem totalWei_nonneg {chunk : List PaymentReceipt} (h : ∀ r ∈ chunk, Storable r) :
    0 ≤ totalWei chunk := by
  refine List.sum_nonneg ?_
  intro wei hwei
  rcases List.mem_map.1 hwei with ⟨r, hr, rfl⟩
  exact (h r hr).amountFrom_eq.2.1

theorem newSettlement_isOk_iff (cfg : Settlement.Config) (id : SettlementId)
    (input : Settlement.SettleBatchInput) :
    (∃ row, newSettlement cfg id input = .ok row) ↔
      ∃ quoted, quote cfg.policy input.totalAmount = .ok quoted := by
  simp only [newSettlement, bind_eq_ok, pure_eq_ok]
  constructor
  · rintro ⟨_, quoted, hquoted, _⟩
    exact ⟨quoted, hquoted⟩
  · rintro ⟨quoted, hquoted⟩
    exact ⟨_, quoted, hquoted, rfl⟩

theorem accepted_iff (cfg : Config) (keccak : Keccak) (escrowId : Text) {chunk : List PaymentReceipt}
    (h : ∀ r ∈ chunk, Storable r) : Accepted cfg keccak escrowId chunk ↔ Fits chunk := by
  have hquote := quote_isOk_iff cfg.settlement.policy (totalWei_nonneg h)
  have hpack := packReceiptsCompact_isOk_iff keccak (packables chunk)
  rw [packableBatch_packables h] at hpack
  constructor
  · rintro ⟨input, hinput, hrow⟩
    rcases (batchInput_of_storable keccak escrowId h).1 hinput with ⟨packed, hpacked, hfields⟩
    rcases hpack.1 ⟨packed, hpacked⟩ with ⟨hcount, hagents⟩
    have hquoted := (newSettlement_isOk_iff cfg.settlement 0 input).1 (hrow 0)
    -- the row quotes the total of the chunk
    rw [hfields] at hquoted
    exact ⟨hcount, hagents, hquote.1 hquoted⟩
  · intro hfits
    rcases hpack.2 ⟨hfits.count, hfits.agents⟩ with ⟨packed, hpacked⟩
    refine ⟨_, (batchInput_of_storable keccak escrowId h).2 ⟨packed, hpacked, rfl⟩, ?_⟩
    intro id
    exact (newSettlement_isOk_iff _ id _).2 (hquote.2 hfits.total)

/-- What is due stays due: the next tick that finds the same receipts forms the same chunk. -/
theorem formed_mono (cfg : Config) {now later : Time} (hle : now ≤ later)
    {pending chunk : List PaymentReceipt} (h : chunk ∈ formed cfg now pending) :
    chunk ∈ formed cfg later pending := by
  rcases List.mem_flatMap.1 h with ⟨group, hgroup, hdue⟩
  refine List.mem_flatMap.2 ⟨group, hgroup, ?_⟩
  rcases List.mem_filter.1 hdue with ⟨hslice, hcond⟩
  refine List.mem_filter.2 ⟨hslice, ?_⟩
  -- a full slice does not depend on the time, and a window that has elapsed stays so
  rcases Bool.or_eq_true_iff.1 hcond with hfull | helapsed
  · exact Bool.or_eq_true_iff.2 (Or.inl hfull)
  · refine Bool.or_eq_true_iff.2 (Or.inr ?_)
    cases hreceipts : group.2 with
    | nil =>
        rw [hreceipts] at helapsed
        exact absurd helapsed Bool.false_ne_true
    | cons oldest rest =>
        rw [hreceipts] at helapsed
        exact decide_eq_true ((of_decide_eq_true helapsed).trans hle)

/-- Every due chunk of storable receipts gets its settlement row exactly when it is within the limits
of the codec and of the quotation.  One that does not is formed again by every later tick. -/
theorem due_chunk_accepted_iff (cfg : Config) (keccak : Keccak) (now : Time)
    {pending : List PaymentReceipt} (hstored : ∀ r ∈ pending, Storable r) :
    ∀ chunk ∈ formed cfg now pending, ∀ escrowId,
      (((∃ packed, packReceiptsCompact keccak (packables chunk) = .ok packed) ∧
          ∃ quoted, quote cfg.settlement.policy (Amount.fromWei (totalWei chunk)).toString =
            .ok quoted) ↔ Fits chunk) ∧
        (Accepted cfg keccak escrowId chunk ↔ Fits chunk) ∧
        ∀ later, now ≤ later → chunk ∈ formed cfg later pending := by
  intro chunk hchunk escrowId
  have hchunkStored : ∀ r ∈ chunk, Storable r := by
    intro r hr
    have hflat : r ∈ (formed cfg now pending).flatten := List.mem_flatten_of_mem hchunk hr
    exact hstored r ((subperm_formed cfg now pending).subset hflat)
  refine ⟨?_, accepted_iff cfg keccak escrowId hchunkStored, fun _ hle => formed_mono cfg hle hchunk⟩
  rw [packReceiptsCompact_isOk_iff, packableBatch_packables hchunkStored,
    quote_isOk_iff _ (totalWei_nonneg hchunkStored)]
  constructor
  · rintro ⟨⟨hcount, hagents⟩, htotal⟩
    exact ⟨hcount, hagents, htotal⟩
  · intro hfits
    exact ⟨⟨hfits.count, hfits.agents⟩, hfits.total⟩

def duePair : List PaymentReceipt := [create 1 0 (sampleDto 'A'), create 2 0 (sampleDto '2')]

theorem storable_duePair : ∀ r ∈ duePair, Storable r := by
  intro r hr
  rcases List.mem_pair.1 hr with rfl | rfl
  · exact ⟨by decide, by decide, by decide, 15 * 10 ^ 17, by decide, by decide⟩
  · exact ⟨by decide, by decide, by decide, 15 * 10 ^ 17, by decide, by decide⟩

/-- Two receipts are accepted together once they have waited for the window. -/
theorem due_chunk_accepted_iff_duePair : Accepted sampleConfig sampleKeccak ['e'] duePair := by
  have hdue : duePair ∈ formed sampleConfig 60000 duePair := by decide
  have hfits : Fits duePair := ⟨by decide, by decide, by decide⟩
  exact (due_chunk_accepted_iff sampleConfig sampleKeccak 60000 storable_duePair _ hdue ['e']).2.1.2
    hfits

/-! ## A chunk that is never settled -/

/-- A receipt of 9·10^17 tokens, which is a `number` and less than the column can hold. -/
def largeReceipt (id : ReceiptId) (digit : Char) : PaymentReceipt :=
  create id 0 { sampleDto digit with amount := "900000000000000000.000000000000000000".toList }

def largeReceipts : List PaymentReceipt := [largeReceipt 1 'A', largeReceipt 2 '2']

theorem storable_largeReceipts : ∀ r ∈ largeReceipts, Storable r := by
  have hamount : amountFrom "900000000000000000.000000000000000000".toList =
      .ok ⟨(9 * 10 ^ 35 : Nat)⟩ := by decide
  intro r hr
  rcases List.mem_cons.1 hr with rfl | hr
  · exact ⟨by decide, by decide, by decide, _, hamount, by decide⟩
  · rw [List.mem_singleton.1 hr]
    exact ⟨by decide, by decide, by decide, _, hamount, by decide⟩

/-- Two large receipts are due together, and no fee can be quoted for their sum. -/
theorem large_receipts_block_escrow :
    ¬ ∀ (cfg : Config) (keccak : Keccak) (now : Time) (pending : List PaymentReceipt),
      (∀ r ∈ pending, Storable r) → ∀ chunk ∈ formed cfg now pending, ∀ escrowId,
        Accepted cfg keccak escrowId chunk := by
  intro h
  have hdue : largeReceipts ∈ formed sampleConfig 60000 largeReceipts := by decide
  have haccepted := h sampleConfig sampleKeccak 60000 largeReceipts storable_largeReceipts
    largeReceipts hdue ['e']
  have hfits := (accepted_iff sampleConfig sampleKeccak ['e'] storable_largeReceipts).1 haccepted
  exact absurd hfits.total (by decide)

end BatchScheduler
end PaymentRail
