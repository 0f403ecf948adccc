import PaymentRail.Collections.Intern
import PaymentRail.Receipts.Merkle
import PaymentRail.Strings.BigInt
import PaymentRail.Strings.HexBytes

/-!
# BatchCalldata — the compact encoding of a batch

This module embeds `settlement/batch-calldata.util.ts`.  A blob is a version byte, a dictionary of
the addresses of the batch in order of first appearance, the number of receipts, and for each
receipt its hash, the positions of its two addresses and its amount in scientific notation.

* `packReceiptsCompact_isOk_iff`: which lists of receipts are accepted;
* `packReceiptsCompact_roundtrip`: what is unpacked from a blob is what was packed into it.

Patterns are matched without the limits of an engine: on a blob of several megabytes the stack of a
regular expression may overflow.
-/

namespace PaymentRail
namespace Settlement

open Machine Strings Receipts Collections

/-! ## The functions of the source -/

structure PackableReceipt where
  receiptHash : Text
  payer : Text
  payee : Text
  amountMinor : Numeric
  deriving DecidableEq, Repr

structure CompactBatch where
  blob : Text
  root : Text
  count : Nat
  bytes : Nat
  deriving DecidableEq, Repr

def compactVersion : Nat := 0x02

def maxUint256 : Nat := 2 ^ 256 - 1

def maxAddresses : Nat := 255

def maxReceipts : Nat := 0xffff

def byte (value : Nat) : Text := padStart 2 '0' (Nat.toDigits 16 value)

def evenHex (value : Nat) : Text :=
  let hex := Nat.toDigits 16 value
  if hex.length % 2 = 0 then hex else '0' :: hex

/-- The loop of `toScientific`; it is only entered with a positive mantissa. -/
def stripZeros (mantissa exponent : Nat) : Nat × Nat :=
  if 0 < mantissa ∧ mantissa % 10 = 0 then stripZeros (mantissa / 10) (exponent + 1)
  else (mantissa, exponent)
termination_by mantissa
decreasing_by omega

/-- Strips trailing decimal zeros: `1500` gives mantissa `15` and exponent `2`. -/
def toScientific (amount : Nat) : Nat × Nat :=
  if amount = 0 then (0, 0) else stripZeros amount 0

def mantissaHex (mantissa : Nat) : Text := if mantissa = 0 then [] else evenHex mantissa

/-- The keys of the source's `Map`, in order of insertion.  An entry is never removed and its
value is the size of the map when it was inserted, so it is the position of the key. -/
abbrev AddressIndex := List Text

def indexOf (address : Text) (field : String) (addressIndex : AddressIndex) :
    Except String (Nat × AddressIndex) := do
  require (hexPattern 40 address = true) (field ++ " must be a 0x-prefixed Ethereum address")
  let key := toLowerCase (address.drop 2)
  match addressIndex.idxOf? key with
  | some index => return (index, addressIndex)
  | none =>
      -- one byte has to hold the number of addresses as well
      let index := addressIndex.length
      require (index < maxAddresses) "Too many distinct addresses in one batch"
      return (index, addressIndex ++ [key])

/-- One round of the loop of `packReceiptsCompact`. -/
def packReceipt (receipt : PackableReceipt) (addressIndex : AddressIndex) :
    Except String (Text × AddressIndex) := do
  require (hexPattern 64 receipt.receiptHash = true)
    "receiptHash must be a 0x-prefixed 32-byte hex string"
  let amount ← bigInt receipt.amountMinor
  require (0 ≤ amount ∧ amount ≤ maxUint256)
    ("amountMinor " ++ toString amount ++ " does not fit in uint256")
  -- the payer is looked up first, so it comes first among new addresses
  let (payer, addressIndex) ← indexOf receipt.payer "payer" addressIndex
  let (payee, addressIndex) ← indexOf receipt.payee "payee" addressIndex
  let (mantissa, exponent) := toScientific amount.toNat
  return (toLowerCase (receipt.receiptHash.drop 2) ++ byte payer ++ byte payee ++ byte exponent ++
    byte ((mantissaHex mantissa).length / 2) ++ mantissaHex mantissa, addressIndex)

def packBody : List PackableReceipt → AddressIndex → Except String (List Text × AddressIndex)
  | [], addressIndex => .ok ([], addressIndex)
  | receipt :: receipts, addressIndex => do
      let (line, addressIndex) ← packReceipt receipt addressIndex
      let (body, addressIndex) ← packBody receipts addressIndex
      return (line :: body, addressIndex)

def compactHeader (addressIndex : AddressIndex) (count : Nat) : Text :=
  byte compactVersion ++ byte addressIndex.length ++ addressIndex.flatten ++
    padStart 4 '0' (Nat.toDigits 16 count)

def packReceiptsCompact (keccak : Keccak) (receipts : List PackableReceipt) :
    Except String CompactBatch := do
  require (receipts.length ≤ maxReceipts)
    ("A batch holds at most " ++ toString maxReceipts ++ " receipts")
  -- the header is written last: only then is the dictionary complete
  let (body, addressIndex) ← packBody receipts []
  let blob := '0' :: 'x' :: (compactHeader addressIndex receipts.length ++ body.flatten)
  let root ← merkleRoot keccak (receipts.map (·.receiptHash))
  return { blob, root, count := receipts.length, bytes := (blob.length - 2) / 2 }

/-- `/^0x([0-9a-fA-F]{2})+$/.test(s)` -/
def blobPattern : Text → Bool
  | '0' :: 'x' :: hex => hex.length != 0 && hex.length % 2 == 0 && hex.all isHexDigit
  | _ => false

/-- `take` cuts the next bytes off the part of the blob behind the cursor. -/
def take (bytes : Nat) (hex : Text) : Except String (Text × Text) := do
  require (bytes * 2 ≤ hex.length) "Compact blob is truncated"
  return (hex.take (bytes * 2), hex.drop (bytes * 2))

def takeAddresses : Nat → Text → Except String (List Text × Text)
  | 0, hex => .ok ([], hex)
  | count + 1, hex => do
      let (chunk, hex) ← take 20 hex
      let (addresses, hex) ← takeAddresses count hex
      return (('0' :: 'x' :: chunk) :: addresses, hex)

def lookup (addresses : List Text) (index : Nat) : Except String Text :=
  match addresses[index]? with
  | some address => .ok address
  | none => .error ("Address index " ++ toString index ++ " is out of range")

/-- `length === 0 ? 0n : BigInt('0x' + take(length))`, before the digits are read as a number. -/
def takeMantissa (length : Nat) (hex : Text) : Except String (Text × Text) :=
  if length = 0 then .ok ([], hex) else take length hex

/-- One round of the loop of `unpackReceiptsCompact`. -/
def unpackReceipt (addresses : List Text) (hex : Text) :
    Except String (PackableReceipt × Text) := do
  let (hash, hex) ← take 32 hex
  let (payerIndex, hex) ← take 1 hex
  let payer ← lookup addresses (value 16 payerIndex)
  let (payeeIndex, hex) ← take 1 hex
  let payee ← lookup addresses (value 16 payeeIndex)
  let (exponent, hex) ← take 1 hex
  let (length, hex) ← take 1 hex
  require (value 16 length ≤ 32) "Mantissa is longer than 32 bytes"
  let (mantissa, hex) ← takeMantissa (value 16 length) hex
  -- an exponent byte may be as large as 255, so the product is checked, not the fields
  let amountMinor := value 16 mantissa * 10 ^ value 16 exponent
  require (amountMinor ≤ maxUint256) "Decoded amount does not fit in uint256"
  return ({ receiptHash := '0' :: 'x' :: hash, payer, payee, amountMinor := .bigint amountMinor },
    hex)

def unpackBody (addresses : List Text) : Nat → Text → Except String (List PackableReceipt × Text)
  | 0, hex => .ok ([], hex)
  | count + 1, hex => do
      let (receipt, hex) ← unpackReceipt addresses hex
      let (receipts, hex) ← unpackBody addresses count hex
      return (receipt :: receipts, hex)

def unpackReceiptsCompact (blob : Text) : Except String (List PackableReceipt) := do
  require (blobPattern blob = true) "Invalid compact blob"
  let hex := toLowerCase (blob.drop 2)
  let (version, hex) ← take 1 hex
  require (value 16 version = compactVersion)
    ("Unsupported compact version " ++ toString (value 16 version))
  let (addressCount, hex) ← take 1 hex
  let (addresses, hex) ← takeAddresses (value 16 addressCount) hex
  let (count, hex) ← take 2 hex
  let (receipts, hex) ← unpackBody addresses (value 16 count) hex
  require (hex.length = 0) "Compact blob has trailing bytes"
  return receipts

/-! ## Fields of the format -/

theorem length_byte {n : Nat} (h : n < 256) : (byte n).length = 2 :=
  length_padStart_toDigits (by decide) (by decide) (by simpa using h)

@[simp] theorem value_byte (n : Nat) : value 16 (byte n) = n := by
  simp [byte, value_toDigits]

theorem hexBytes_byte {n : Nat} (h : n < 256) : HexBytes (byte n) :=
  HexBytes.padStart_toDigits (by simpa [byte] using congrArg (· % 2) (length_byte h))

/-- The number of receipts takes two bytes. -/
theorem length_countField {n : Nat} (h : n ≤ maxReceipts) :
    (padStart 4 '0' (Nat.toDigits 16 n)).length = 4 := by
  have hlt : n < 16 ^ 4 := Nat.lt_of_le_of_lt h (by decide)
  exact length_padStart_toDigits (by decide) (by decide) hlt

theorem value_countField (n : Nat) : value 16 (padStart 4 '0' (Nat.toDigits 16 n)) = n := by
  simp [value_toDigits]

theorem hexBytes_countField {n : Nat} (h : n ≤ maxReceipts) :
    HexBytes (padStart 4 '0' (Nat.toDigits 16 n)) :=
  HexBytes.padStart_toDigits (by rw [length_countField h])

/-- `evenHex` pads to a whole number of bytes. -/
theorem evenHex_eq (n : Nat) :
    evenHex n = padStart (2 * (((Nat.toDigits 16 n).length + 1) / 2)) '0' (Nat.toDigits 16 n) := by
  by_cases h : (Nat.toDigits 16 n).length % 2 = 0
  · have hfill : 2 * (((Nat.toDigits 16 n).length + 1) / 2) - (Nat.toDigits 16 n).length = 0 := by
      omega
    simp [evenHex, padStart, h, hfill]
  · have hfill : 2 * (((Nat.toDigits 16 n).length + 1) / 2) - (Nat.toDigits 16 n).length = 1 := by
      omega
    simp [evenHex, padStart, h, hfill]

theorem length_evenHex (n : Nat) :
    (evenHex n).length = 2 * (((Nat.toDigits 16 n).length + 1) / 2) := by
  rw [evenHex_eq]
  exact length_padStart (by omega)

@[simp] theorem value_evenHex (n : Nat) : value 16 (evenHex n) = n := by
  rw [evenHex_eq, value_padStart]
  exact value_toDigits (by decide) (by decide) n

theorem hexBytes_evenHex (n : Nat) : HexBytes (evenHex n) := by
  have heven : (evenHex n).length % 2 = 0 := by
    rw [length_evenHex]
    omega
  rw [evenHex_eq] at heven ⊢
  exact HexBytes.padStart_toDigits heven

/-- A mantissa of 256 bits takes at most 32 bytes. -/
theorem length_evenHex_le {n : Nat} (h : n ≤ maxUint256) : (evenHex n).length / 2 ≤ 32 := by
  have hlt : n < 16 ^ 64 := Nat.lt_of_le_of_lt h (by decide)
  have hdigits : (Nat.toDigits 16 n).length ≤ 64 :=
    (Nat.length_toDigits_le_iff (by decide) (by decide)).2 hlt
  rw [length_evenHex]
  omega

@[simp] theorem value_mantissaHex (n : Nat) : value 16 (mantissaHex n) = n := by
  by_cases h : n = 0
  · simp [mantissaHex, h]
  · simp [mantissaHex, h]

theorem hexBytes_mantissaHex (n : Nat) : HexBytes (mantissaHex n) := by
  by_cases h : n = 0
  · simpa [mantissaHex, h] using HexBytes.nil
  · simpa [mantissaHex, h] using hexBytes_evenHex n

theorem length_mantissaHex_le {n : Nat} (h : n ≤ maxUint256) :
    (mantissaHex n).length / 2 ≤ 32 := by
  by_cases hzero : n = 0
  · simp [mantissaHex, hzero]
  · simpa [mantissaHex, hzero] using length_evenHex_le h

/-! ## Scientific notation -/

theorem stripZeros_value (mantissa exponent : Nat) :
    (stripZeros mantissa exponent).1 * 10 ^ (stripZeros mantissa exponent).2 =
      mantissa * 10 ^ exponent := by
  induction mantissa, exponent using stripZeros.induct with
  | case1 mantissa exponent h ih =>
      have hdiv : mantissa / 10 * 10 = mantissa :=
        Nat.div_mul_cancel (Nat.dvd_of_mod_eq_zero h.2)
      rw [stripZeros, if_pos h, ih]
      calc
        mantissa / 10 * 10 ^ (exponent + 1)
            = mantissa / 10 * 10 * 10 ^ exponent := by ring
        _ = mantissa * 10 ^ exponent := by rw [hdiv]
  | case2 mantissa exponent h =>
      rw [stripZeros, if_neg h]

theorem stripZeros_pos {mantissa : Nat} (exponent : Nat) (h : 0 < mantissa) :
    0 < (stripZeros mantissa exponent).1 := by
  induction mantissa, exponent using stripZeros.induct with
  | case1 mantissa exponent hloop ih =>
      rw [stripZeros, if_pos hloop]
      exact ih (by omega)
  | case2 mantissa exponent hexit =>
      rw [stripZeros, if_neg hexit]
      exact h

theorem toScientific_value (amount : Nat) :
    (toScientific amount).1 * 10 ^ (toScientific amount).2 = amount := by
  by_cases h : amount = 0
  · simp [toScientific, h]
  · simpa [toScientific, h] using stripZeros_value amount 0

/-- Both fields of an amount of 256 bits have the width the format gives them. -/
theorem toScientific_bounds {amount : Nat} (h : amount ≤ maxUint256) :
    (toScientific amount).1 ≤ maxUint256 ∧ (toScientific amount).2 < 78 := by
  by_cases hzero : amount = 0
  · simp [toScientific, hzero]
  · have hvalue := toScientific_value amount
    have hpos : 0 < (toScientific amount).1 := by
      simpa [toScientific, hzero] using stripZeros_pos 0 (Nat.pos_of_ne_zero hzero)
    have hpow : 0 < 10 ^ (toScientific amount).2 := Nat.pow_pos (by decide)
    refine ⟨?_, ?_⟩
    · calc
        (toScientific amount).1
            ≤ (toScientific amount).1 * 10 ^ (toScientific amount).2 := Nat.le_mul_of_pos_right _ hpow
        _ = amount := hvalue
        _ ≤ maxUint256 := h
    -- a positive mantissa leaves no room for an exponent of 78
    · have hlt : 10 ^ (toScientific amount).2 < 10 ^ 78 := by
        calc
          10 ^ (toScientific amount).2
              ≤ (toScientific amount).1 * 10 ^ (toScientific amount).2 :=
                Nat.le_mul_of_pos_left _ hpos
          _ = amount := hvalue
          _ ≤ maxUint256 := h
          _ < 10 ^ 78 := by decide
      exact (Nat.pow_lt_pow_iff_right (by decide)).1 hlt

/-! ## What is accepted -/

/-- A receipt whose fields have the stated shapes and whose amount fits in 256 bits. -/
structure Packable (receipt : PackableReceipt) : Prop where
  receiptHash : hexPattern 64 receipt.receiptHash = true
  payer : hexPattern 40 receipt.payer = true
  payee : hexPattern 40 receipt.payee = true
  amountMinor : ∃ n : Nat, bigInt receipt.amountMinor = .ok (n : Int) ∧ n ≤ maxUint256

/-- The amount as an integer. -/
def amountOf (receipt : PackableReceipt) : Nat :=
  match bigInt receipt.amountMinor with
  | .ok n => n.toNat
  | .error _ => 0

theorem amountOf_eq {receipt : PackableReceipt} {n : Int} (h : bigInt receipt.amountMinor = .ok n) :
    amountOf receipt = n.toNat := by
  simp [amountOf, h]

theorem Packable.bigInt_eq {receipt : PackableReceipt} (h : Packable receipt) :
    bigInt receipt.amountMinor = .ok (amountOf receipt : Int) ∧ amountOf receipt ≤ maxUint256 := by
  rcases h.amountMinor with ⟨n, hn, hle⟩
  have hamount : amountOf receipt = n := by simpa using amountOf_eq hn
  rw [hamount]
  exact ⟨hn, hle⟩

/-- An address as a key of the dictionary. -/
def addressKey (address : Text) : Text := toLowerCase (address.drop 2)

/-- The keys a list of receipts looks up, in order. -/
def addressKeys (receipts : List PackableReceipt) : List Text :=
  receipts.flatMap fun receipt => [addressKey receipt.payer, addressKey receipt.payee]

/-- The dictionary of a batch. -/
def dictionaryOf (receipts : List PackableReceipt) : AddressIndex :=
  internAll [] (addressKeys receipts)

/-- What `packReceipt` writes, given the positions in the final dictionary. -/
def receiptLine (addressIndex : AddressIndex) (receipt : PackableReceipt) : Text :=
  let scientific := toScientific (amountOf receipt)
  toLowerCase (receipt.receiptHash.drop 2) ++ byte (addressIndex.idxOf (addressKey receipt.payer)) ++
    byte (addressIndex.idxOf (addressKey receipt.payee)) ++ byte scientific.2 ++
    byte ((mantissaHex scientific.1).length / 2) ++ mantissaHex scientific.1

/-! ## Packing -/

theorem indexOf_eq_ok {address : Text} {field : String} {d d' : AddressIndex} {i : Nat}
    (hd : d.length ≤ maxAddresses) :
    indexOf address field d = .ok (i, d') ↔
      hexPattern 40 address = true ∧ d' = intern d (addressKey address) ∧
        d'.length ≤ maxAddresses ∧ i = d'.idxOf (addressKey address) := by
  unfold indexOf
  simp only [bind_eq_ok, require_eq_ok, exists_const]
  change _ ∧ (match d.idxOf? (addressKey address) with | some index => _ | none => _) = _ ↔ _
  by_cases hmem : addressKey address ∈ d
  · have hfound : d.idxOf? (addressKey address) = some (d.idxOf (addressKey address)) :=
      idxOf?_of_mem hmem
    have hintern : intern d (addressKey address) = d := by simp [intern, hmem]
    rw [hfound, hintern]
    simp only [pure_eq_ok, Prod.mk.injEq]
    constructor
    · rintro ⟨hpattern, rfl, rfl⟩
      exact ⟨hpattern, rfl, hd, rfl⟩
    · rintro ⟨hpattern, rfl, _, rfl⟩
      exact ⟨hpattern, rfl, rfl⟩
  · have hfound : d.idxOf? (addressKey address) = none := List.idxOf?_eq_none_iff.2 hmem
    have hintern : intern d (addressKey address) = d ++ [addressKey address] := by
      simp [intern, hmem]
    have hposition : (d ++ [addressKey address]).idxOf (addressKey address) = d.length := by
      rw [List.idxOf_append_of_notMem hmem, List.idxOf_cons_self, Nat.add_zero]
    rw [hfound, hintern]
    simp only [bind_eq_ok, require_eq_ok, exists_const, pure_eq_ok, Prod.mk.injEq]
    constructor
    · rintro ⟨hpattern, hroom, rfl, rfl⟩
      exact ⟨hpattern, rfl, by simpa [Nat.succ_le_iff] using hroom, hposition.symm⟩
    · rintro ⟨hpattern, rfl, hlen, rfl⟩
      exact ⟨hpattern, by simpa [Nat.succ_le_iff] using hlen, hposition.symm, rfl⟩

/-- The dictionary only grows, so a dictionary that is small enough at the end always was. -/
theorem length_internAll_mono {d : AddressIndex} (ks : List Text)
    (h : (internAll d ks).length ≤ maxAddresses) : d.length ≤ maxAddresses :=
  (prefix_internAll d ks).length_le.trans h

theorem packReceipt_eq_ok {receipt : PackableReceipt} {d d' : AddressIndex} {line : Text}
    (hd : d.length ≤ maxAddresses) :
    packReceipt receipt d = .ok (line, d') ↔
      Packable receipt ∧ d' = internAll d (addressKeys [receipt]) ∧ d'.length ≤ maxAddresses ∧
        line = receiptLine d' receipt := by
  have hkeys : ∀ d₁ d₂, d₁ = intern d (addressKey receipt.payer) →
      d₂ = intern d₁ (addressKey receipt.payee) →
      d₁.idxOf (addressKey receipt.payer) = d₂.idxOf (addressKey receipt.payer) := by
    rintro d₁ d₂ rfl rfl
    exact (idxOf_internAll [addressKey receipt.payee] (mem_intern.2 (Or.inr rfl))).symm
  unfold packReceipt
  simp only [bind_eq_ok, require_eq_ok, exists_const, pure_eq_ok, Prod.mk.injEq, Prod.exists]
  constructor
  · rintro ⟨hhash, amount, hamount, ⟨hpos, hle⟩, i, d₁, hpayer, j, d₂, hpayee, rfl, rfl⟩
    rcases (indexOf_eq_ok hd).1 hpayer with ⟨hpayerOk, hd₁, hlen₁, rfl⟩
    rcases (indexOf_eq_ok hlen₁).1 hpayee with ⟨hpayeeOk, hd₂, hlen₂, rfl⟩
    have hnat : ((amount.toNat : Nat) : Int) = amount := Int.toNat_of_nonneg hpos
    refine ⟨⟨hhash, hpayerOk, hpayeeOk, amount.toNat, by rw [hnat]; exact hamount, by omega⟩,
      by simp [addressKeys, hd₁, hd₂], hlen₂, ?_⟩
    simp only [receiptLine, amountOf_eq hamount, hkeys d₁ d₂ hd₁ hd₂]
  · rintro ⟨hpackable, hd', hlen, rfl⟩
    have hd₂ : d' = intern (intern d (addressKey receipt.payer)) (addressKey receipt.payee) := by
      simpa [addressKeys] using hd'
    have hlen₁ : (intern d (addressKey receipt.payer)).length ≤ maxAddresses :=
      length_internAll_mono [addressKey receipt.payee] (by simpa [← hd₂] using hlen)
    refine ⟨hpackable.receiptHash, amountOf receipt, hpackable.bigInt_eq.1,
      ⟨by omega, by exact_mod_cast hpackable.bigInt_eq.2⟩, _, _,
      (indexOf_eq_ok hd).2 ⟨hpackable.payer, rfl, hlen₁, rfl⟩, _, _,
      (indexOf_eq_ok hlen₁).2 ⟨hpackable.payee, hd₂, hlen, rfl⟩, ?_, rfl⟩
    simp only [receiptLine, Int.toNat_natCast, hkeys _ d' rfl hd₂]

/-- The loop succeeds on packable receipts whose addresses fit in the dictionary, and writes every
receipt with respect to the final dictionary. -/
theorem packBody_eq_ok {receipts : List PackableReceipt} :
    ∀ {d d' : AddressIndex} {body : List Text}, d.length ≤ maxAddresses →
      (packBody receipts d = .ok (body, d') ↔
        (∀ receipt ∈ receipts, Packable receipt) ∧ d' = internAll d (addressKeys receipts) ∧
          d'.length ≤ maxAddresses ∧ body = receipts.map (receiptLine d')) := by
  induction receipts with
  | nil =>
      intro d d' body hd
      simp only [packBody, addressKeys, Except.ok.injEq, Prod.mk.injEq, List.flatMap_nil,
        internAll_nil, List.map_nil, List.not_mem_nil, false_implies, implies_true, true_and]
      constructor
      · rintro ⟨rfl, rfl⟩
        exact ⟨rfl, hd, rfl⟩
      · rintro ⟨rfl, _, rfl⟩
        exact ⟨rfl, rfl⟩
  | cons receipt receipts ih =>
      intro d d' body hd
      have hkeys : addressKeys (receipt :: receipts) =
          addressKeys [receipt] ++ addressKeys receipts := by
        simp [addressKeys]
      -- the positions of this receipt's addresses are final already
      have hline : ∀ d₁, d₁ = internAll d (addressKeys [receipt]) →
          receiptLine d₁ receipt = receiptLine (internAll d₁ (addressKeys receipts)) receipt := by
        rintro d₁ rfl
        have hmem : ∀ k ∈ addressKeys [receipt], k ∈ internAll d (addressKeys [receipt]) :=
          fun k hk => mem_internAll.2 (Or.inr hk)
        simp only [receiptLine,
          idxOf_internAll (addressKeys receipts) (hmem (addressKey receipt.payer) (by simp [addressKeys])),
          idxOf_internAll (addressKeys receipts) (hmem (addressKey receipt.payee) (by simp [addressKeys]))]
      simp only [packBody, bind_eq_ok, pure_eq_ok, Prod.exists, Prod.mk.injEq]
      constructor
      · rintro ⟨line, d₁, hreceipt, rest, d₂, hrest, rfl, rfl⟩
        rcases (packReceipt_eq_ok hd).1 hreceipt with ⟨hpackable, hd₁, hlen₁, rfl⟩
        rcases (ih hlen₁).1 hrest with ⟨hall, hd₂, hlen₂, rfl⟩
        refine ⟨by simpa using ⟨hpackable, hall⟩, ?_, hlen₂, ?_⟩
        · rw [hkeys, internAll_append, ← hd₁, hd₂]
        · rw [List.map_cons, hline d₁ hd₁, ← hd₂]
      · rintro ⟨hall, hd', hlen, rfl⟩
        rw [hkeys, internAll_append] at hd'
        have hlen₁ : (internAll d (addressKeys [receipt])).length ≤ maxAddresses :=
          length_internAll_mono _ (by rw [← hd']; exact hlen)
        refine ⟨_, _, (packReceipt_eq_ok hd).2 ⟨hall receipt (by simp), rfl, hlen₁, rfl⟩, _, _,
          (ih hlen₁).2 ⟨fun r hr => hall r (by simp [hr]), hd', hlen, rfl⟩, ?_, rfl⟩
        rw [List.map_cons, hline _ rfl, ← hd']

/-! ## Unpacking -/

theorem take_eq_ok {bytes : Nat} {hex chunk rest : Text} :
    take bytes hex = .ok (chunk, rest) ↔ hex = chunk ++ rest ∧ chunk.length = bytes * 2 := by
  simp only [take, bind_eq_ok, require_eq_ok, exists_const, pure_eq_ok, Prod.mk.injEq]
  constructor
  · rintro ⟨hle, rfl, rfl⟩
    exact ⟨(List.take_append_drop _ _).symm, by simpa using hle⟩
  · rintro ⟨rfl, hlen⟩
    exact ⟨by simp [hlen], List.take_left' hlen, List.drop_left' hlen⟩

theorem take_append {bytes : Nat} {chunk : Text} (rest : Text) (h : chunk.length = bytes * 2) :
    take bytes (chunk ++ rest) = .ok (chunk, rest) :=
  take_eq_ok.2 ⟨rfl, h⟩

/-- `'0x' + key` -/
def addressOfKey (key : Text) : Text := '0' :: 'x' :: key

theorem addressOfKey_addressKey {address : Text} (h : hexPattern 40 address = true) :
    addressOfKey (addressKey address) = toLowerCase address :=
  (toLowerCase_of_hexPattern h).symm

theorem takeAddresses_append {keys : List Text} (rest : Text) (h : ∀ key ∈ keys, key.length = 40) :
    takeAddresses keys.length (keys.flatten ++ rest) = .ok (keys.map addressOfKey, rest) := by
  induction keys with
  | nil =>
      rfl
  | cons key keys ih =>
      have hkey : key.length = 20 * 2 := h key (by simp)
      have htail := ih (fun k hk => h k (by simp [hk]))
      simp only [List.length_cons, List.flatten_cons, List.append_assoc, takeAddresses,
        take_append _ hkey, htail, ok_bind]
      rfl

theorem lookup_key {d : AddressIndex} {key : Text} (h : key ∈ d) :
    lookup (d.map addressOfKey) (d.idxOf key) = .ok (addressOfKey key) := by
  have hget : (d.map addressOfKey)[d.idxOf key]? = some (addressOfKey key) := by
    rw [List.getElem?_map, List.getElem?_idxOf h, Option.map_some]
  simp [lookup, hget]

/-- A receipt as it is read back: lower-case hex, and the amount as a `bigint`. -/
def lowerCased (receipt : PackableReceipt) : PackableReceipt where
  receiptHash := toLowerCase receipt.receiptHash
  payer := toLowerCase receipt.payer
  payee := toLowerCase receipt.payee
  amountMinor := .bigint (amountOf receipt)

/-- An empty mantissa takes no bytes, and `take` is not called for it. -/
theorem takeMantissa_append {mantissa : Text} (rest : Text) (h : HexBytes mantissa) :
    takeMantissa (mantissa.length / 2) (mantissa ++ rest) = .ok (mantissa, rest) := by
  have heven := h.even
  by_cases hzero : mantissa.length / 2 = 0
  · have hnil : mantissa = [] := List.length_eq_zero_iff.1 (by omega)
    simp [takeMantissa, hnil]
  · rw [takeMantissa, if_neg hzero]
    exact take_append rest (by omega)

theorem unpackReceipt_receiptLine {d : AddressIndex} {receipt : PackableReceipt} (rest : Text)
    (hpackable : Packable receipt) (hd : d.length ≤ maxAddresses)
    (hpayer : addressKey receipt.payer ∈ d) (hpayee : addressKey receipt.payee ∈ d) :
    unpackReceipt (d.map addressOfKey) (receiptLine d receipt ++ rest) =
      .ok (lowerCased receipt, rest) := by
  have hindex : ∀ key ∈ d, (byte (d.idxOf key)).length = 1 * 2 := by
    intro key hkey
    have hlt := List.idxOf_lt_length_of_mem hkey
    exact length_byte (Nat.lt_of_lt_of_le hlt (hd.trans (by decide)))
  have hbounds := toScientific_bounds hpackable.bigInt_eq.2
  have hhash : (toLowerCase (receipt.receiptHash.drop 2)).length = 32 * 2 :=
    length_drop_of_hexPattern hpackable.receiptHash
  have hexponent : (byte (toScientific (amountOf receipt)).2).length = 1 * 2 :=
    length_byte (by omega)
  have hle : (mantissaHex (toScientific (amountOf receipt)).1).length / 2 ≤ 32 :=
    length_mantissaHex_le hbounds.1
  have hlength : (byte ((mantissaHex (toScientific (amountOf receipt)).1).length / 2)).length =
      1 * 2 :=
    length_byte (by omega)
  have hamount : amountOf receipt ≤ maxUint256 := hpackable.bigInt_eq.2
  -- the fields are cut off one after the other, in the order in which they were written
  simp only [unpackReceipt, receiptLine, List.append_assoc, take_append _ hhash,
    take_append _ (hindex _ hpayer), take_append _ (hindex _ hpayee), take_append _ hexponent,
    take_append _ hlength, ok_bind, value_byte, lookup_key hpayer, lookup_key hpayee,
    require_of hle, takeMantissa_append _ (hexBytes_mantissaHex _), value_mantissaHex,
    toScientific_value, require_of hamount]
  simp only [lowerCased, toLowerCase_of_hexPattern hpackable.receiptHash,
    addressOfKey_addressKey hpackable.payer, addressOfKey_addressKey hpackable.payee]
  rfl

theorem unpackBody_receiptLines {d : AddressIndex} (hd : d.length ≤ maxAddresses)
    {receipts : List PackableReceipt} (hall : ∀ receipt ∈ receipts, Packable receipt)
    (hkeys : ∀ key ∈ addressKeys receipts, key ∈ d) (rest : Text) :
    unpackBody (d.map addressOfKey) receipts.length
        ((receipts.map (receiptLine d)).flatten ++ rest) =
      .ok (receipts.map lowerCased, rest) := by
  induction receipts with
  | nil =>
      rfl
  | cons receipt receipts ih =>
      have htail := ih (fun r hr => hall r (by simp [hr]))
        (fun key hkey => hkeys key (by
          simp only [addressKeys, List.flatMap_cons, List.mem_append] at hkey ⊢
          exact Or.inr hkey))
      have hhead := unpackReceipt_receiptLine ((receipts.map (receiptLine d)).flatten ++ rest)
        (hall receipt (by simp)) hd (hkeys _ (by simp [addressKeys]))
        (hkeys _ (by simp [addressKeys]))
      simp only [List.length_cons, List.map_cons, List.flatten_cons, List.append_assoc, unpackBody,
        hhead, htail, ok_bind]
      rfl

/-! ## The blob as a whole -/

theorem hexBytes_addressKey {address : Text} (h : hexPattern 40 address = true) :
    HexBytes (addressKey address) :=
  HexBytes.of_hexPattern (by decide) h

theorem forall_mem_addressKeys {P : Text → Prop} {receipts : List PackableReceipt}
    (hpayer : ∀ receipt ∈ receipts, P (addressKey receipt.payer))
    (hpayee : ∀ receipt ∈ receipts, P (addressKey receipt.payee)) :
    ∀ key ∈ addressKeys receipts, P key := by
  intro key hkey
  rcases List.mem_flatMap.1 hkey with ⟨receipt, hmem, hside⟩
  rcases List.mem_cons.1 hside with rfl | hside
  · exact hpayer receipt hmem
  · rcases List.mem_singleton.1 hside with rfl
    exact hpayee receipt hmem

theorem hexBytes_receiptLine {d : AddressIndex} {receipt : PackableReceipt}
    (hpackable : Packable receipt) (hd : d.length ≤ maxAddresses) :
    HexBytes (receiptLine d receipt) := by
  have hindex : ∀ key, d.idxOf key < 256 := fun key =>
    Nat.lt_of_le_of_lt (List.idxOf_le_length.trans hd) (by decide)
  have hbounds := toScientific_bounds hpackable.bigInt_eq.2
  have hle := length_mantissaHex_le hbounds.1
  have hhash : HexBytes (toLowerCase (receipt.receiptHash.drop 2)) :=
    HexBytes.of_hexPattern (by decide) hpackable.receiptHash
  exact ((((hhash.append (hexBytes_byte (hindex _))).append (hexBytes_byte (hindex _))).append
    (hexBytes_byte (by omega))).append (hexBytes_byte (by omega))).append (hexBytes_mantissaHex _)

/-- The addresses of a batch, without regard to letter case. -/
def addressesOf (receipts : List PackableReceipt) : Finset Text :=
  (receipts.flatMap fun receipt =>
    [toLowerCase receipt.payer, toLowerCase receipt.payee]).toFinset

/-- A list of receipts that can be packed into one blob. -/
structure PackableBatch (receipts : List PackableReceipt) : Prop where
  count : receipts.length ≤ 65535
  packable : ∀ receipt ∈ receipts, Packable receipt
  addresses : (addressesOf receipts).card ≤ 255

/-- Addresses are told apart by their dictionary keys. -/
theorem card_addresses {receipts : List PackableReceipt}
    (hall : ∀ receipt ∈ receipts, Packable receipt) :
    (addressesOf receipts).card = (dictionaryOf receipts).length := by
  have hmap : (receipts.flatMap fun receipt =>
      [toLowerCase receipt.payer, toLowerCase receipt.payee]) =
      (addressKeys receipts).map addressOfKey := by
    rw [addressKeys, List.map_flatMap]
    refine List.flatMap_congr ?_
    intro receipt hmem
    have hpackable := hall receipt hmem
    simp [addressOfKey_addressKey hpackable.payer, addressOfKey_addressKey hpackable.payee]
  have hinj : Function.Injective addressOfKey := by
    intro a b h
    simpa [addressOfKey] using h
  have himage : addressesOf receipts = (addressKeys receipts).toFinset.image addressOfKey := by
    rw [addressesOf, hmap]
    ext address
    simp
  -- the dictionary has each key once, and a key is its address without the `0x`
  rw [himage, dictionaryOf, length_internAll]
  exact Finset.card_image_of_injective _ hinj

theorem PackableBatch.length_dictionaryOf {receipts : List PackableReceipt}
    (hbatch : PackableBatch receipts) : (dictionaryOf receipts).length ≤ maxAddresses := by
  rw [← card_addresses hbatch.packable]
  exact hbatch.addresses

theorem mem_dictionaryOf {receipts : List PackableReceipt} {key : Text} :
    key ∈ dictionaryOf receipts ↔ key ∈ addressKeys receipts := by
  simp [dictionaryOf, mem_internAll]

/-- The hex digits of the blob of a batch. -/
def blobHex (receipts : List PackableReceipt) : Text :=
  compactHeader (dictionaryOf receipts) receipts.length ++
    (receipts.map (receiptLine (dictionaryOf receipts))).flatten

/-- The blob of a batch. -/
def blobOf (receipts : List PackableReceipt) : Text := '0' :: 'x' :: blobHex receipts

theorem packReceiptsCompact_eq_ok {keccak : Keccak} {receipts : List PackableReceipt}
    {batch : CompactBatch} :
    packReceiptsCompact keccak receipts = .ok batch ↔
      PackableBatch receipts ∧ ∃ root,
        merkleRoot keccak (receipts.map (·.receiptHash)) = .ok root ∧
        batch = { blob := blobOf receipts, root, count := receipts.length,
                  bytes := ((blobOf receipts).length - 2) / 2 } := by
  have hempty : ([] : AddressIndex).length ≤ maxAddresses := by decide
  simp only [packReceiptsCompact, bind_eq_ok, require_eq_ok, exists_const, pure_eq_ok,
    Prod.exists]
  constructor
  · rintro ⟨hcount, body, d, hbody, root, hroot, rfl⟩
    rcases (packBody_eq_ok hempty).1 hbody with ⟨hall, rfl, hlen, rfl⟩
    exact ⟨⟨hcount, hall, by rw [card_addresses hall]; exact hlen⟩, root, hroot, rfl⟩
  · rintro ⟨hbatch, root, hroot, rfl⟩
    exact ⟨hbatch.count, _, _,
      (packBody_eq_ok hempty).2 ⟨hbatch.packable, rfl, hbatch.length_dictionaryOf, rfl⟩, root,
      hroot, rfl⟩

/-- Exactly the batches described by `PackableBatch` are accepted. -/
theorem packReceiptsCompact_isOk_iff (keccak : Keccak) (receipts : List PackableReceipt) :
    (∃ batch, packReceiptsCompact keccak receipts = .ok batch) ↔ PackableBatch receipts := by
  constructor
  · rintro ⟨batch, hbatch⟩
    exact (packReceiptsCompact_eq_ok.1 hbatch).1
  · intro hbatch
    have hleaves : ∀ leaf ∈ receipts.map (·.receiptHash), hashPattern leaf = true := by
      intro leaf hleaf
      rcases List.mem_map.1 hleaf with ⟨receipt, hmem, rfl⟩
      exact (hbatch.packable receipt hmem).receiptHash
    rcases merkleRoot_isOk keccak hleaves with ⟨root, hroot⟩
    exact ⟨_, packReceiptsCompact_eq_ok.2 ⟨hbatch, root, hroot, rfl⟩⟩

theorem hexBytes_blobHex {receipts : List PackableReceipt} (hbatch : PackableBatch receipts) :
    HexBytes (blobHex receipts) := by
  have hlen := hbatch.length_dictionaryOf
  have hdictionary : HexBytes (dictionaryOf receipts).flatten := by
    refine HexBytes.flatten ?_
    intro key hkey
    exact forall_mem_addressKeys
      (fun r hr => hexBytes_addressKey (hbatch.packable r hr).payer)
      (fun r hr => hexBytes_addressKey (hbatch.packable r hr).payee) key (mem_dictionaryOf.1 hkey)
  have hheader : HexBytes (compactHeader (dictionaryOf receipts) receipts.length) :=
    (((hexBytes_byte (by decide)).append
      (hexBytes_byte (Nat.lt_of_le_of_lt hlen (by decide)))).append hdictionary).append
      (hexBytes_countField hbatch.count)
  refine hheader.append (HexBytes.flatten ?_)
  intro line hline
  rcases List.mem_map.1 hline with ⟨receipt, hmem, rfl⟩
  exact hexBytes_receiptLine (hbatch.packable receipt hmem) hlen

theorem blobPattern_blobOf {receipts : List PackableReceipt} (hbatch : PackableBatch receipts) :
    blobPattern (blobOf receipts) = true := by
  have hbytes := hexBytes_blobHex hbatch
  have hpos : (blobHex receipts).length ≠ 0 := by
    have hversion : (byte compactVersion).length = 2 := length_byte (by decide)
    simp only [blobHex, compactHeader, List.length_append, hversion]
    omega
  have hdigits := fun c hc => isHexDigit_iff.2 (hbytes.digits c hc)
  simp only [blobOf, blobPattern, Bool.and_eq_true, bne_iff_ne, beq_iff_eq, List.all_eq_true]
  exact ⟨⟨hpos, hbytes.even⟩, hdigits⟩

theorem unpackReceiptsCompact_blobOf {receipts : List PackableReceipt}
    (hbatch : PackableBatch receipts) :
    unpackReceiptsCompact (blobOf receipts) = .ok (receipts.map lowerCased) := by
  have hlen := hbatch.length_dictionaryOf
  have hwidth : ∀ key ∈ dictionaryOf receipts, key.length = 40 := by
    intro key hkey
    exact forall_mem_addressKeys (P := fun key => key.length = 40)
      (fun r hr => length_drop_of_hexPattern (hbatch.packable r hr).payer)
      (fun r hr => length_drop_of_hexPattern (hbatch.packable r hr).payee) key
      (mem_dictionaryOf.1 hkey)
  have hversion : (byte compactVersion).length = 1 * 2 := length_byte (by decide)
  have haddressCount : (byte (dictionaryOf receipts).length).length = 1 * 2 :=
    length_byte (Nat.lt_of_le_of_lt hlen (by decide))
  have hcount : (padStart 4 '0' (Nat.toDigits 16 receipts.length)).length = 2 * 2 :=
    length_countField hbatch.count
  have hbody := unpackBody_receiptLines hlen hbatch.packable (fun _ => mem_dictionaryOf.2) []
  rw [List.append_nil] at hbody
  -- the blob is written in lower case already
  have hhex : toLowerCase ((blobOf receipts).drop 2) = blobHex receipts :=
    (hexBytes_blobHex hbatch).toLowerCase_eq
  simp only [unpackReceiptsCompact, require_of (blobPattern_blobOf hbatch), ok_bind, hhex]
  -- header, dictionary, count and lines, each cut off where it was written
  simp only [blobHex, compactHeader, List.append_assoc, take_append _ hversion, ok_bind,
    value_byte, require_of, take_append _ haddressCount, takeAddresses_append _ hwidth,
    take_append _ hcount, value_countField, hbody]
  rfl

/-! ## The round trip -/

/-- Packing accepts exactly the batches of `PackableBatch`.  What unpacking the blob returns is the
batch itself, in the same order, with hashes and addresses in lower case and the amounts as
integers; and `bytes` is the length of the blob in bytes. -/
theorem packReceiptsCompact_roundtrip (keccak : Keccak) (receipts : List PackableReceipt) :
    ((∃ batch, packReceiptsCompact keccak receipts = .ok batch) ↔ PackableBatch receipts) ∧
      ∀ batch, packReceiptsCompact keccak receipts = .ok batch →
        unpackReceiptsCompact batch.blob = .ok (receipts.map lowerCased) ∧
          (∀ receipt ∈ receipts,
            bigInt receipt.amountMinor = bigInt (lowerCased receipt).amountMinor) ∧
          batch.blob.length = 2 + 2 * batch.bytes ∧ (getBytes batch.blob).length = batch.bytes := by
  refine ⟨packReceiptsCompact_isOk_iff keccak receipts, ?_⟩
  intro batch hpack
  rcases packReceiptsCompact_eq_ok.1 hpack with ⟨hbatch, root, _, rfl⟩
  have heven := (hexBytes_blobHex hbatch).even
  have hlength : (blobOf receipts).length = (blobHex receipts).length + 2 := rfl
  refine ⟨unpackReceiptsCompact_blobOf hbatch, ?_, ?_, ?_⟩
  · intro receipt hmem
    exact (hbatch.packable receipt hmem).bigInt_eq.1
  · simp only [hlength]
    omega
  · simp [getBytes, length_bytesOfHex, blobOf]

/-- Three receipts between two addresses written in different letter case, with an amount of each
type. -/
def sampleReceipts : List PackableReceipt :=
  [{ receiptHash := sampleHash 'A', payer := '0' :: 'x' :: List.replicate 40 'C',
     payee := '0' :: 'x' :: List.replicate 40 'd', amountMinor := .bigint 1500 },
   { receiptHash := sampleHash '2', payer := '0' :: 'x' :: List.replicate 40 'c',
     payee := '0' :: 'x' :: List.replicate 40 'D', amountMinor := .number (.finite 0) },
   { receiptHash := sampleHash '3', payer := '0' :: 'x' :: List.replicate 40 'd',
     payee := '0' :: 'x' :: List.replicate 40 'C', amountMinor := .string " 0x10 ".toList }]

theorem sampleReceipts_packable : PackableBatch sampleReceipts where
  count := by decide
  packable := by
    intro receipt hmem
    rcases List.mem_cons.1 hmem with rfl | hmem
    · exact ⟨by decide, by decide, by decide, 1500, rfl, by decide⟩
    · rcases List.mem_cons.1 hmem with rfl | hmem
      · exact ⟨by decide, by decide, by decide, 0, rfl, by decide⟩
      · rcases List.mem_singleton.1 hmem with rfl
        exact ⟨by decide, by decide, by decide, 16, by decide, by decide⟩
  addresses := by decide

theorem packReceiptsCompact_roundtrip_sampleReceipts :
    ∃ batch, packReceiptsCompact sampleKeccak sampleReceipts = .ok batch ∧
      unpackReceiptsCompact batch.blob = .ok (sampleReceipts.map lowerCased) ∧
      batch.blob.length = 2 + 2 * batch.bytes := by
  rcases (packReceiptsCompact_roundtrip sampleKeccak sampleReceipts).1.2
    sampleReceipts_packable with ⟨batch, hbatch⟩
  have hread := (packReceiptsCompact_roundtrip sampleKeccak sampleReceipts).2 batch hbatch
  exact ⟨batch, hbatch, hread.1, hread.2.2.1⟩

end Settlement
end PaymentRail
