import PaymentRail.Settlement.BatchCalldata

/-!
# ReceiptPacking — the first encoding of a batch

This module embeds `settlement/receipt-packing.util.ts`.  A blob of the first encoding is a row of 80
bytes for each receipt: its hash, its two addresses and its amount as a `uint64`.

The compact encoding came later and shares no code with it but the Merkle root.  Where the first one
accepts a batch that fits into a compact blob, both decode to the same receipts
(`encodings_agree`).
-/

namespace PaymentRail
namespace Settlement

open Machine Strings Receipts

/-! ## The functions of the source -/

structure PackedBatch where
  blob : Text
  root : Text
  count : Nat
  deriving DecidableEq, Repr

/-- `RECEIPT_BYTES` -/
def receiptBytes : Nat := 80

def maxUint64 : Nat := 0xffffffffffffffff

def assertHash32 (text : Text) (field : String) : Except String Unit :=
  require (hexPattern 64 text = true) (field ++ " must be a 0x-prefixed 32-byte hex string")

def assertAddress (text : Text) (field : String) : Except String Unit :=
  require (hexPattern 40 text = true) (field ++ " must be a 0x-prefixed Ethereum address")

/-- One round of the loop of `packReceipts`. -/
def packRow (r : PackableReceipt) : Except String Text := do
  assertHash32 r.receiptHash "receiptHash"
  assertAddress r.payer "payer"
  assertAddress r.payee "payee"
  let amount ← bigInt r.amountMinor
  require (0 ≤ amount ∧ amount ≤ maxUint64)
    ("amountMinor " ++ toString amount ++ " does not fit in uint64")
  return padStart 64 '0' (toLowerCase (r.receiptHash.drop 2)) ++
    padStart 40 '0' (toLowerCase (r.payer.drop 2)) ++
    padStart 40 '0' (toLowerCase (r.payee.drop 2)) ++
    padStart 16 '0' (Nat.toDigits 16 amount.toNat)

def packReceipts (keccak : Keccak) (receipts : List PackableReceipt) : Except String PackedBatch :=
  if receipts.length = 0 then
    .ok { blob := ['0', 'x'], root := zeroHash, count := 0 }
  else do
    let parts ← receipts.mapM packRow
    let blob := '0' :: 'x' :: parts.flatten
    -- the division of the source is exact, so half a byte is unexpected as well
    require (blob.length - 2 = receipts.length * receiptBytes * 2)
      "Packing produced unexpected blob size"
    let root ← merkleRoot keccak (receipts.map (·.receiptHash))
    return { blob, root, count := receipts.length }

/-- One round of the loop of `unpackReceipts`, on the part of the blob behind `i`. -/
def unpackRow (row : Text) : Except String PackableReceipt := do
  let amountMinor ← bigInt (.string ('0' :: 'x' :: (row.drop (64 + 40 + 40)).take 16))
  return { receiptHash := '0' :: 'x' :: row.take 64
           payer := '0' :: 'x' :: (row.drop 64).take 40
           payee := '0' :: 'x' :: (row.drop (64 + 40)).take 40
           amountMinor := .bigint amountMinor }

def unpackRows : Nat → Text → Except String (List PackableReceipt)
  | 0, _ => .ok []
  | count + 1, rows => do
      let receipt ← unpackRow rows
      let receipts ← unpackRows count (rows.drop (receiptBytes * 2))
      return receipt :: receipts

def unpackReceipts (blob : Text) : Except String (List PackableReceipt) := do
  require (['0', 'x'] <+: blob ∧ (blob.length - 2) % (receiptBytes * 2) = 0) "Invalid packed blob"
  unpackRows ((blob.length - 2) / (receiptBytes * 2)) (blob.drop 2)

/-! ## Rows -/

/-- A receipt the first encoding has room for. -/
structure FitsRow (r : PackableReceipt) : Prop where
  packable : Packable r
  uint64 : amountOf r ≤ maxUint64

theorem packRow_eq_ok {r : PackableReceipt} {row : Text} :
    packRow r = .ok row ↔ FitsRow r ∧
      row = toLowerCase (r.receiptHash.drop 2) ++ (toLowerCase (r.payer.drop 2) ++
        (toLowerCase (r.payee.drop 2) ++ padStart 16 '0' (Nat.toDigits 16 (amountOf r)))) := by
  -- a field that has its width already is not padded
  have hpad : ∀ {n : Nat} {s : Text}, hexPattern n s = true →
      padStart n '0' (toLowerCase (s.drop 2)) = toLowerCase (s.drop 2) := by
    intro n s hs
    rw [padStart, length_drop_of_hexPattern hs, Nat.sub_self]
    rfl
  simp only [packRow, assertHash32, assertAddress, bind_eq_ok, require_eq_ok, exists_const,
    pure_eq_ok]
  -- the checks of the loop are `FitsRow`, with the amount as a natural number
  constructor
  · rintro ⟨hhash, hpayer, hpayee, amount, hamount, ⟨hpos, hle⟩, rfl⟩
    have hnat : ((amount.toNat : Nat) : Int) = amount := Int.toNat_of_nonneg hpos
    have hwidth : amount.toNat ≤ maxUint64 := by omega
    have hpackable : Packable r :=
      ⟨hhash, hpayer, hpayee, amount.toNat, by rw [hnat]; exact hamount,
        hwidth.trans (by decide)⟩
    rw [hpad hhash, hpad hpayer, hpad hpayee, ← amountOf_eq hamount]
    exact ⟨⟨hpackable, by rw [amountOf_eq hamount]; exact hwidth⟩, by simp⟩
  · rintro ⟨⟨hpackable, huint⟩, rfl⟩
    refine ⟨hpackable.receiptHash, hpackable.payer, hpackable.payee, amountOf r,
      hpackable.bigInt_eq.1, ⟨Int.natCast_nonneg _, by exact_mod_cast huint⟩, ?_⟩
    rw [hpad hpackable.receiptHash, hpad hpackable.payer, hpad hpackable.payee, Int.toNat_natCast]
    simp

section Row

variable {r : PackableReceipt} {row : Text} (h : packRow r = .ok row)

include h

theorem length_row : row.length = receiptBytes * 2 := by
  rcases packRow_eq_ok.1 h with ⟨⟨hpackable, huint⟩, rfl⟩
  have hamount : (padStart 16 '0' (Nat.toDigits 16 (amountOf r))).length = 16 :=
    length_padStart_toDigits (by decide) (by decide) (Nat.lt_of_le_of_lt huint (by decide))
  simp only [List.length_append, length_drop_of_hexPattern hpackable.receiptHash,
    length_drop_of_hexPattern hpackable.payer, length_drop_of_hexPattern hpackable.payee, hamount]
  rfl

theorem unpackRow_append (rest : Text) : unpackRow (row ++ rest) = .ok (lowerCased r) := by
  rcases packRow_eq_ok.1 h with ⟨⟨hpackable, huint⟩, rfl⟩
  have hhash := length_drop_of_hexPattern hpackable.receiptHash
  have hpayer := length_drop_of_hexPattern hpackable.payer
  have hpayee := length_drop_of_hexPattern hpackable.payee
  have hamount : (padStart 16 '0' (Nat.toDigits 16 (amountOf r))).length = 16 :=
    length_padStart_toDigits (by decide) (by decide) (Nat.lt_of_le_of_lt huint (by decide))
  have hread : bigInt (.string ('0' :: 'x' :: padStart 16 '0' (Nat.toDigits 16 (amountOf r)))) =
      .ok (amountOf r : Int) := by
    have hne : padStart 16 '0' (Nat.toDigits 16 (amountOf r)) ≠ [] := by
      rw [← List.length_pos_iff, hamount]
      decide
    have hbytes : HexBytes (padStart 16 '0' (Nat.toDigits 16 (amountOf r))) :=
      HexBytes.padStart_toDigits (by rw [hamount])
    rw [bigInt_hex hne hbytes.digits, value_padStart, value_toDigits (by decide) (by decide)]
  -- the four fields, cut off one after the other
  simp only [unpackRow, List.append_assoc, ← List.drop_drop, List.take_left' hhash,
    List.drop_left' hhash, List.take_left' hpayer, List.drop_left' hpayer, List.take_left' hpayee,
    List.drop_left' hpayee, List.take_left' hamount, hread, ok_bind, pure_eq_ok]
  simp only [lowerCased, toLowerCase_of_hexPattern hpackable.receiptHash,
    toLowerCase_of_hexPattern hpackable.payer, toLowerCase_of_hexPattern hpackable.payee]

end Row

section Rows

variable {receipts : List PackableReceipt} {rows : List Text}
  (h : List.Forall₂ (fun r row => packRow r = .ok row) receipts rows)

include h

theorem length_rows : rows.flatten.length = receipts.length * receiptBytes * 2 := by
  induction h with
  | nil => rfl
  | cons hrow _ ih =>
      rw [List.flatten_cons, List.length_append, ih, length_row hrow, List.length_cons]
      ring

theorem unpackRows_flatten :
    unpackRows receipts.length rows.flatten = .ok (receipts.map lowerCased) := by
  induction h with
  | nil => rfl
  | cons hrow _ ih =>
      rw [List.length_cons, List.flatten_cons, unpackRows, unpackRow_append hrow, ok_bind,
        List.drop_left' (length_row hrow), ih]
      rfl

theorem fitsRow_of_mem : ∀ r ∈ receipts, FitsRow r := by
  intro r hr
  rcases List.forall₂_iff_get.1 h with ⟨hlength, hget⟩
  rcases List.mem_iff_get.1 hr with ⟨i, rfl⟩
  exact (packRow_eq_ok.1 (hget i.1 i.2 (hlength ▸ i.2))).1

end Rows

/-! ## Batches -/

/-- What `packReceipts` returns; an empty batch has no rows and the zero hash for its root. -/
theorem packReceipts_eq_ok {keccak : Keccak} {receipts : List PackableReceipt} {packed : PackedBatch}
    (h : packReceipts keccak receipts = .ok packed) :
    ∃ rows, List.Forall₂ (fun r row => packRow r = .ok row) receipts rows ∧
      packed.blob = '0' :: 'x' :: rows.flatten ∧ packed.count = receipts.length ∧
      merkleRoot keccak (receipts.map (·.receiptHash)) = .ok packed.root := by
  unfold packReceipts at h
  split at h
  · rename_i hempty
    cases h
    obtain rfl : receipts = [] := List.length_eq_zero_iff.1 hempty
    exact ⟨[], .nil, rfl, rfl, rfl⟩
  · simp only [bind_eq_ok, require_eq_ok, exists_const, pure_eq_ok] at h
    rcases h with ⟨rows, hrows, _, root, hroot, rfl⟩
    exact ⟨rows, mapM_eq_ok.1 hrows, rfl, rfl, hroot⟩

theorem unpackReceipts_rows {receipts : List PackableReceipt} {rows : List Text}
    (h : List.Forall₂ (fun r row => packRow r = .ok row) receipts rows) :
    unpackReceipts ('0' :: 'x' :: rows.flatten) = .ok (receipts.map lowerCased) := by
  have hlength : ('0' :: 'x' :: rows.flatten).length - 2 = receipts.length * (receiptBytes * 2) := by
    show rows.flatten.length + 1 + 1 - 2 = receipts.length * (receiptBytes * 2)
    rw [length_rows h, Nat.mul_assoc]
    omega
  have hwidth : 0 < receiptBytes * 2 := by decide
  have hshape : ['0', 'x'] <+: '0' :: 'x' :: rows.flatten ∧
      (('0' :: 'x' :: rows.flatten).length - 2) % (receiptBytes * 2) = 0 := by
    refine ⟨⟨rows.flatten, rfl⟩, ?_⟩
    rw [hlength, Nat.mul_mod_left]
  rw [unpackReceipts, require_of hshape, ok_bind, hlength, Nat.mul_div_cancel _ hwidth]
  exact unpackRows_flatten h

/-- A batch of the first encoding that is small enough for the compact one is accepted by it, with
the same root and count; both blobs are read back as the same receipts; and the first blob takes 80
bytes for each of them. -/
theorem encodings_agree {keccak : Keccak} {receipts : List PackableReceipt} {packed : PackedBatch}
    (hpack : packReceipts keccak receipts = .ok packed) (hcount : receipts.length ≤ 65535)
    (haddresses : (addressesOf receipts).card ≤ 255) :
    ∃ compact, packReceiptsCompact keccak receipts = .ok compact ∧
      compact.root = packed.root ∧ compact.count = packed.count ∧
      unpackReceipts packed.blob = .ok (receipts.map lowerCased) ∧
      unpackReceiptsCompact compact.blob = .ok (receipts.map lowerCased) ∧
      packed.blob.length = 2 + 2 * (80 * receipts.length) := by
  rcases packReceipts_eq_ok hpack with ⟨rows, hrows, hblob, hsize, hroot⟩
  have hbatch : PackableBatch receipts :=
    ⟨hcount, fun r hr => (fitsRow_of_mem hrows r hr).packable, haddresses⟩
  refine ⟨_, packReceiptsCompact_eq_ok.2 ⟨hbatch, packed.root, hroot, rfl⟩, rfl, hsize.symm, ?_,
    unpackReceiptsCompact_blobOf hbatch, ?_⟩
  · rw [hblob]
    exact unpackReceipts_rows hrows
  · rw [hblob, List.length_cons, List.length_cons, length_rows hrows, receiptBytes]
    ring

theorem encodings_agree_sampleReceipts :
    ∃ packed compact, packReceipts sampleKeccak sampleReceipts = .ok packed ∧
      packReceiptsCompact sampleKeccak sampleReceipts = .ok compact ∧
      compact.root = packed.root ∧ packed.blob.length = 2 + 2 * (80 * 3) := by
  have hpack : (packReceipts sampleKeccak sampleReceipts).isOk = true := by decide +kernel
  cases hpacked : packReceipts sampleKeccak sampleReceipts with
  | error message =>
      rw [hpacked] at hpack
      cases hpack
  | ok packed =>
      rcases encodings_agree hpacked (by decide) (by decide) with
        ⟨compact, hcompact, hroot, _, _, _, hlength⟩
      exact ⟨packed, compact, rfl, hcompact, hroot, hlength⟩

end Settlement
end PaymentRail
