import PaymentRail.Collections.Sums
import PaymentRail.Settlement.CompactDecoding
import PaymentRail.Settlement.ReceiptPacking

/-!
# CalldataGas — what a batch costs as calldata

This module embeds `calldataGas` of `settlement/batch-calldata.util.ts`, the price of a blob: 4 for a
zero byte and 16 for any other one.  A hash costs the same in both encodings.  The compact one pays for
each distinct address once, and for a receipt no more than its two indexes, its exponent, its length
and eight bytes of mantissa.

- `gasOf` : the loop of `calldataGas`
- `gas_receiptLine` : a line of the compact encoding beside the row of the first one
- `compact_calldata_cost` : both blobs of a batch
-/

namespace PaymentRail
namespace Settlement

open Machine Collections Strings Receipts

/-! ## The function of the source -/

def gasPerZeroByte : Nat := 4

def gasPerNonzeroByte : Nat := 16

def gasOf : Text → Nat
  | [] => 0
  -- there is no second digit to compare with
  | [_] => gasPerNonzeroByte
  | high :: low :: hex =>
      (if high = '0' ∧ low = '0' then gasPerZeroByte else gasPerNonzeroByte) + gasOf hex

def calldataGas : Text → Nat
  | '0' :: 'x' :: hex => gasOf hex
  | hexData => gasOf hexData

/-! ## Whole bytes -/

section Bytes

variable {s t : Text}

theorem even_of_cons_cons {high low : Char} (h : (high :: low :: s).length % 2 = 0) :
    s.length % 2 = 0 := by
  rw [List.length_cons, List.length_cons] at h
  omega

theorem gasOf_append (t : Text) (h : s.length % 2 = 0) : gasOf (s ++ t) = gasOf s + gasOf t := by
  induction s using gasOf.induct with
  | case1 => simp [gasOf]
  | case2 c => cases h
  | case3 high low hex ih =>
      have hrest := even_of_cons_cons h
      simp only [List.cons_append, gasOf, ih hrest, Nat.add_assoc]

theorem gasOf_flatten {parts : List Text} (h : ∀ s ∈ parts, s.length % 2 = 0) :
    gasOf parts.flatten = (parts.map gasOf).sum := by
  induction parts with
  | nil => rfl
  | cons s parts ih =>
      rw [List.flatten_cons, gasOf_append _ (h s List.mem_cons_self),
        ih fun t ht => h t (List.mem_cons_of_mem s ht), List.map_cons, List.sum_cons]

/-- At most 16 for a byte. -/
theorem gasOf_le (h : s.length % 2 = 0) : gasOf s ≤ 8 * s.length := by
  induction s using gasOf.induct with
  | case1 => exact Nat.le_refl 0
  | case2 c => cases h
  | case3 high low hex ih =>
      have hrest := ih (even_of_cons_cons h)
      simp only [gasOf, gasPerZeroByte, gasPerNonzeroByte, List.length_cons]
      split
      · omega
      · omega

/-- At least 4 for a byte. -/
theorem le_gasOf (h : s.length % 2 = 0) : 2 * s.length ≤ gasOf s := by
  induction s using gasOf.induct with
  | case1 => exact Nat.le_refl 0
  | case2 c => cases h
  | case3 high low hex ih =>
      have hrest := ih (even_of_cons_cons h)
      simp only [gasOf, gasPerZeroByte, gasPerNonzeroByte, List.length_cons]
      split
      · omega
      · omega

/-- A number that is not zero has a byte that is not zero. -/
theorem le_gasOf_of_value (h : s.length % 2 = 0) (hvalue : value 16 s ≠ 0) :
    2 * s.length + 12 ≤ gasOf s := by
  induction s using gasOf.induct with
  | case1 => exact absurd (value_nil 16) hvalue
  | case2 c => cases h
  | case3 high low hex ih =>
      have heven := even_of_cons_cons h
      simp only [gasOf, gasPerZeroByte, gasPerNonzeroByte, List.length_cons]
      split
      · rename_i hzero
        -- two zeros in front add nothing to the number
        have hrest : value 16 hex ≠ 0 := by
          rw [hzero.1, hzero.2] at hvalue
          exact hvalue
        have hgas := ih heven hrest
        omega
      · have hgas := le_gasOf heven
        omega

theorem gasOf_byte_le {n : Nat} (h : n < 256) : gasOf (byte n) ≤ 16 := by
  have hgas := gasOf_le (s := byte n) (by rw [length_byte h])
  rw [length_byte h] at hgas
  exact hgas

end Bytes

/-! ## Receipts -/

section Receipt

variable {r : PackableReceipt} {row : Text}

theorem length_addressKey {address : Text} (h : hexPattern 40 address = true) :
    (addressKey address).length = 40 := length_drop_of_hexPattern h

/-- An amount of 64 bits has a mantissa of at most eight bytes. -/
theorem length_mantissaHex_of_uint64 {amount : Nat} (h : amount ≤ maxUint64) :
    (mantissaHex (toScientific amount).1).length ≤ 16 := by
  have hvalue := toScientific_value amount
  have hle : (toScientific amount).1 ≤ amount := by
    calc
      (toScientific amount).1
          ≤ (toScientific amount).1 * 10 ^ (toScientific amount).2 :=
            Nat.le_mul_of_pos_right _ (Nat.pow_pos (by decide))
      _ = amount := hvalue
  have hlt : (toScientific amount).1 < 16 ^ 16 :=
    Nat.lt_of_le_of_lt (hle.trans h) (by decide)
  unfold mantissaHex
  split
  · exact Nat.zero_le _
  · exact length_evenHex_of_lt hlt (by decide) (by decide)

/-- The row of the first encoding: the hash, two addresses and eight bytes. -/
theorem gas_row (h : packRow r = .ok row) :
    gasOf row = gasOf (toLowerCase (r.receiptHash.drop 2)) + gasOf (addressKey r.payer) +
      gasOf (addressKey r.payee) + gasOf (padStart 16 '0' (Nat.toDigits 16 (amountOf r))) := by
  rcases packRow_eq_ok.1 h with ⟨⟨hpackable, _⟩, rfl⟩
  have hhash := length_drop_of_hexPattern hpackable.receiptHash
  have hpayer := length_drop_of_hexPattern hpackable.payer
  have hpayee := length_drop_of_hexPattern hpackable.payee
  rw [gasOf_append _ (by rw [hhash]), gasOf_append _ (by rw [hpayer]),
    gasOf_append _ (by rw [hpayee]), addressKey, addressKey]
  omega

/-- The line of the compact encoding: the hash, four bytes and the mantissa. -/
theorem gas_receiptLine_eq {d : AddressIndex} (hd : d.length ≤ maxAddresses) (h : FitsRow r) :
    ∃ payer payee, payer ≤ 16 ∧ payee ≤ 16 ∧
      gasOf (receiptLine d r) = gasOf (toLowerCase (r.receiptHash.drop 2)) + payer + payee +
        gasOf (byte (toScientific (amountOf r)).2) +
        gasOf (byte ((mantissaHex (toScientific (amountOf r)).1).length / 2)) +
        gasOf (mantissaHex (toScientific (amountOf r)).1) := by
  have hindex : ∀ key, d.idxOf key < 256 := fun key =>
    Nat.lt_of_le_of_lt (List.idxOf_le_length.trans hd) (by decide)
  have hbounds := toScientific_bounds h.packable.bigInt_eq.2
  have hlength := length_mantissaHex_le hbounds.1
  have hpayer := gasOf_byte_le (hindex (addressKey r.payer))
  have hpayee := gasOf_byte_le (hindex (addressKey r.payee))
  refine ⟨_, _, hpayer, hpayee, ?_⟩
  simp only [receiptLine, List.append_assoc]
  rw [gasOf_append _ (by rw [length_drop_of_hexPattern h.packable.receiptHash]),
    gasOf_append _ (by rw [length_byte (hindex _)]), gasOf_append _ (by rw [length_byte (hindex _)]),
    gasOf_append _ (by rw [length_byte (by omega)]), gasOf_append _ (by rw [length_byte (by omega)])]
  omega

/-- A line costs at least 12 less than its row would with the cheapest addresses. -/
theorem gas_receiptLine {d : AddressIndex} (hd : d.length ≤ maxAddresses) (h : packRow r = .ok row) :
    gasOf (receiptLine d r) + gasOf (addressKey r.payer) + gasOf (addressKey r.payee) + 12 ≤
      gasOf row + 160 := by
  have hfits := (packRow_eq_ok.1 h).1
  rcases gas_receiptLine_eq hd hfits with ⟨payer, payee, hpayer, hpayee, hline⟩
  have hamount : (padStart 16 '0' (Nat.toDigits 16 (amountOf r))).length = 16 :=
    length_padStart_toDigits (by decide) (by decide) (Nat.lt_of_le_of_lt hfits.uint64 (by decide))
  rw [hline, gas_row h]
  by_cases hzero : amountOf r = 0
  · -- no exponent, no length and no mantissa
    have hgas := le_gasOf (s := padStart 16 '0' (Nat.toDigits 16 (amountOf r))) (by rw [hamount])
    rw [hamount] at hgas
    have hexponent : gasOf (byte (toScientific 0).2) = 4 := by decide
    have hlength : gasOf (byte ((mantissaHex (toScientific 0).1).length / 2)) = 4 := by decide
    have hmantissa : gasOf (mantissaHex (toScientific 0).1) = 0 := by decide
    rw [hzero] at hgas ⊢
    omega
  · -- the row has a byte that is not zero
    have hvalue : value 16 (padStart 16 '0' (Nat.toDigits 16 (amountOf r))) ≠ 0 := by
      rw [value_padStart, value_toDigits (by decide) (by decide)]
      exact hzero
    have hgas := le_gasOf_of_value (by rw [hamount]) hvalue
    have hbounds := toScientific_bounds hfits.packable.bigInt_eq.2
    have hlength := length_mantissaHex_of_uint64 hfits.uint64
    have hexponent := gasOf_byte_le (n := (toScientific (amountOf r)).2) (by omega)
    have hlengthByte :=
      gasOf_byte_le (n := (mantissaHex (toScientific (amountOf r)).1).length / 2) (by omega)
    have hmantissa := gasOf_le (hexBytes_mantissaHex (toScientific (amountOf r)).1).even
    omega

end Receipt

/-! ## Batches -/

section Batch

variable {receipts : List PackableReceipt} {rows : List Text}

/-- Line by line beside the rows. -/
theorem gas_lines {d : AddressIndex} (hd : d.length ≤ maxAddresses)
    (h : List.Forall₂ (fun r row => packRow r = .ok row) receipts rows) :
    ((receipts.map (receiptLine d)).map gasOf).sum + ((addressKeys receipts).map gasOf).sum +
        12 * receipts.length ≤ (rows.map gasOf).sum + 160 * receipts.length := by
  induction h with
  | nil => exact Nat.le_refl _
  | @cons r row receipts rows hrow _ ih =>
      have hline := gas_receiptLine hd hrow
      simp only [addressKeys, List.flatMap_cons, List.map_cons, List.sum_cons, List.map_append,
        List.sum_append, List.map_nil, List.sum_nil, List.length_cons] at ih ⊢
      omega

theorem length_of_mem_addressKeys (h : PackableBatch receipts) {key : Text}
    (hkey : key ∈ addressKeys receipts) : key.length = 40 :=
  forall_mem_addressKeys (P := fun key => key.length = 40)
    (fun r hr => length_addressKey (h.packable r hr).payer)
    (fun r hr => length_addressKey (h.packable r hr).payee) key hkey

/-- The dictionary holds each address once, and an address costs at least 80. -/
theorem gas_dictionary (h : PackableBatch receipts) :
    gasOf (dictionaryOf receipts).flatten + 160 * receipts.length ≤
      ((addressKeys receipts).map gasOf).sum + 80 * (dictionaryOf receipts).length := by
  have hgas : ∀ key ∈ addressKeys receipts, 80 ≤ gasOf key := by
    intro key hkey
    have hlength := length_of_mem_addressKeys h hkey
    have hle := le_gasOf (s := key) (by rw [hlength])
    omega
  -- two keys for each receipt, of which the dictionary keeps the new ones
  have hcount : (addressKeys receipts).length = 2 * receipts.length := by
    simp [addressKeys, List.length_flatMap, Nat.mul_comm]
  have hsum := sum_internAll hgas []
  rw [gasOf_flatten fun key hkey => by
    rw [length_of_mem_addressKeys h (mem_dictionaryOf.1 hkey)]]
  rw [hcount] at hsum
  simp only [List.map_nil, List.sum_nil, List.length_nil] at hsum
  unfold dictionaryOf
  omega

theorem length_compactHeader (h : PackableBatch receipts) :
    (compactHeader (dictionaryOf receipts) receipts.length).length =
      8 + 40 * (dictionaryOf receipts).length := by
  have hsize : (byte (dictionaryOf receipts).length).length = 2 :=
    length_byte (Nat.lt_of_le_of_lt h.length_dictionaryOf (by decide))
  have hversion : (byte compactVersion).length = 2 := length_byte (by decide)
  have hkeys := length_flatten_keys fun key hkey =>
    length_of_mem_addressKeys h (mem_dictionaryOf.1 hkey)
  simp only [compactHeader, List.length_append, hversion, hsize, hkeys, length_countField h.count]
  omega

theorem gas_compactHeader (h : PackableBatch receipts) :
    gasOf (compactHeader (dictionaryOf receipts) receipts.length) ≤
      64 + gasOf (dictionaryOf receipts).flatten := by
  have hd := h.length_dictionaryOf
  have hversion := gasOf_byte_le (n := compactVersion) (by decide)
  have hsize := gasOf_byte_le (n := (dictionaryOf receipts).length)
    (Nat.lt_of_le_of_lt hd (by decide))
  have hcount := gasOf_le (s := padStart 4 '0' (Nat.toDigits 16 receipts.length))
    (by rw [length_countField h.count])
  rw [length_countField h.count] at hcount
  have heven : (dictionaryOf receipts).flatten.length % 2 = 0 := by
    rw [length_flatten_keys fun key hkey =>
      length_of_mem_addressKeys h (mem_dictionaryOf.1 hkey)]
    omega
  simp only [compactHeader, List.append_assoc]
  rw [gasOf_append _ (by rw [length_byte (by decide)]),
    gasOf_append _ (by rw [length_byte (Nat.lt_of_le_of_lt hd (by decide))]), gasOf_append _ heven]
  omega

/-- What follows the `0x` of the compact blob. -/
theorem gas_blobHex (h : PackableBatch receipts)
    (hrows : List.Forall₂ (fun r row => packRow r = .ok row) receipts rows) :
    gasOf (blobHex receipts) + 12 * receipts.length ≤
      (rows.map gasOf).sum + 64 + 80 * (dictionaryOf receipts).length := by
  have hd := h.length_dictionaryOf
  have hheader := gas_compactHeader h
  have hdictionary := gas_dictionary h
  have hlines := gas_lines hd hrows
  have hevenHeader : (compactHeader (dictionaryOf receipts) receipts.length).length % 2 = 0 := by
    rw [length_compactHeader h]
    omega
  have hevenLines : ∀ line ∈ receipts.map (receiptLine (dictionaryOf receipts)),
      line.length % 2 = 0 := by
    intro line hline
    rcases List.mem_map.1 hline with ⟨r, hr, rfl⟩
    exact (hexBytes_receiptLine (h.packable r hr) hd).even
  rw [blobHex, gasOf_append _ hevenHeader, gasOf_flatten hevenLines]
  omega

theorem length_lines_of_fitsRow {d : AddressIndex} (hd : d.length ≤ maxAddresses)
    (h : ∀ r ∈ receipts, FitsRow r) :
    (receipts.map (receiptLine d)).flatten.length ≤ 88 * receipts.length := by
  induction receipts with
  | nil => exact Nat.le_refl _
  | cons r receipts ih =>
      have hr := h r List.mem_cons_self
      have hline := length_receiptLine hr.packable hd
      have hmantissa := length_mantissaHex_of_uint64 hr.uint64
      have hrest := ih fun t ht => h t (List.mem_cons_of_mem r ht)
      rw [List.map_cons, List.flatten_cons, List.length_append, hline, List.length_cons]
      omega

/-- 44 bytes for each receipt at most, beside the header. -/
theorem length_blobHex_le (h : PackableBatch receipts)
    (hrows : List.Forall₂ (fun r row => packRow r = .ok row) receipts rows) :
    (blobHex receipts).length ≤ 8 + 40 * (dictionaryOf receipts).length + 88 * receipts.length := by
  have hbody := length_lines_of_fitsRow h.length_dictionaryOf (fitsRow_of_mem hrows)
  rw [blobHex, List.length_append, length_compactHeader h]
  omega

end Batch

theorem even_rows {receipts : List PackableReceipt} {rows : List Text}
    (h : List.Forall₂ (fun r row => packRow r = .ok row) receipts rows) :
    ∀ row ∈ rows, row.length % 2 = 0 := by
  induction h with
  | nil =>
      intro row hrow
      cases hrow
  | cons hfirst _ ih =>
      intro row hrow
      rcases List.mem_cons.1 hrow with rfl | hrow
      · rw [length_row hfirst]
        exact Nat.mul_mod_left _ 2
      · exact ih row hrow

/-- Whatever its receipts are, a batch that both encodings accept takes, as a compact blob, at most 44
bytes for each receipt and 20 for each distinct address, and it costs no more gas than the first blob
but for 64, and 80 for each distinct address; every receipt saves 12 of it. -/
theorem compact_calldata_cost {keccak : Keccak} {receipts : List PackableReceipt}
    {packed : PackedBatch} {compact : CompactBatch} (hpack : packReceipts keccak receipts = .ok packed)
    (hcompact : packReceiptsCompact keccak receipts = .ok compact) :
    compact.bytes ≤ 4 + 20 * (addressesOf receipts).card + 44 * receipts.length ∧
      calldataGas compact.blob + 12 * receipts.length ≤
        calldataGas packed.blob + 64 + 80 * (addressesOf receipts).card := by
  rcases packReceipts_eq_ok hpack with ⟨rows, hrows, hblob, _, _⟩
  rcases packReceiptsCompact_eq_ok.1 hcompact with ⟨hbatch, root, _, rfl⟩
  have hlength : (blobOf receipts).length = (blobHex receipts).length + 2 := rfl
  have hbytes := length_blobHex_le hbatch hrows
  have hgas := gas_blobHex hbatch hrows
  rw [← gasOf_flatten (even_rows hrows)] at hgas
  rw [card_addresses hbatch.packable, hblob]
  refine ⟨?_, hgas⟩
  simp only [hlength]
  omega

/-- Three receipts between two addresses. -/
theorem compact_calldata_cost_sampleReceipts :
    ∃ packed compact, packReceipts sampleKeccak sampleReceipts = .ok packed ∧
      packReceiptsCompact sampleKeccak sampleReceipts = .ok compact ∧ compact.bytes ≤ 176 ∧
      calldataGas compact.blob + 36 ≤ calldataGas packed.blob + 224 := by
  have hpack : (packReceipts sampleKeccak sampleReceipts).isOk = true := by decide +kernel
  have hcompact : (packReceiptsCompact sampleKeccak sampleReceipts).isOk = true := by decide +kernel
  cases hpacked : packReceipts sampleKeccak sampleReceipts with
  | error message =>
      rw [hpacked] at hpack
      cases hpack
  | ok packed =>
      cases hshort : packReceiptsCompact sampleKeccak sampleReceipts with
      | error message =>
          rw [hshort] at hcompact
          cases hcompact
      | ok compact =>
          have hcard : (addressesOf sampleReceipts).card = 2 := by decide
          have hcost := compact_calldata_cost hpacked hshort
          rw [hcard] at hcost
          exact ⟨packed, compact, rfl, rfl, hcost.1, hcost.2⟩

end Settlement
end PaymentRail
