import PaymentRail.Settlement.BatchCalldata

/-!
# CompactDecoding — what the decoder of the compact encoding accepts

The decoder reads more than the encoder writes: entries of the dictionary that are repeated or not
used, mantissas with zeros in front or at the end, digits in upper case.  `RawBlob` is a blob as the
decoder takes it apart, and `Decodes` what it demands of the parts.

Whatever it accepts can be packed again, and the blob that gives is no longer: every entry of the
canonical dictionary is an entry of the one that was read, and every canonical mantissa is at most the
one that was read.
-/

namespace PaymentRail
namespace Settlement

open Machine Strings Receipts Collections

/-! ## Blobs as they are read -/

/-- The fields of one receipt. -/
structure RawLine where
  hash : Text
  payer : Text
  payee : Text
  exponent : Text
  length : Text
  mantissa : Text

namespace RawLine

def text (line : RawLine) : Text :=
  line.hash ++ (line.payer ++ (line.payee ++ (line.exponent ++ (line.length ++ line.mantissa))))

def amount (line : RawLine) : Nat := value 16 line.mantissa * 10 ^ value 16 line.exponent

/-- What the decoder demands of a line, and the receipt it makes of it. -/
structure Reads (addresses : List Text) (line : RawLine) (receipt : PackableReceipt) : Prop where
  hash : line.hash.length = 64
  payer : line.payer.length = 2
  payee : line.payee.length = 2
  exponent : line.exponent.length = 2
  length : line.length.length = 2
  mantissa : line.mantissa.length = value 16 line.length * 2
  short : value 16 line.length ≤ 32
  fits : line.amount ≤ maxUint256
  payerAt : addresses[value 16 line.payer]? = some receipt.payer
  payeeAt : addresses[value 16 line.payee]? = some receipt.payee
  receiptHash : receipt.receiptHash = '0' :: 'x' :: line.hash
  amountMinor : receipt.amountMinor = .bigint line.amount

end RawLine

structure RawBlob where
  version : Text
  addressCount : Text
  keys : List Text
  count : Text
  lines : List RawLine

namespace RawBlob

def text (raw : RawBlob) : Text :=
  raw.version ++ (raw.addressCount ++ (raw.keys.flatten ++ (raw.count ++
    (raw.lines.map RawLine.text).flatten)))

structure Decodes (raw : RawBlob) (receipts : List PackableReceipt) : Prop where
  version : raw.version.length = 2
  compact : value 16 raw.version = compactVersion
  addressCount : raw.addressCount.length = 2
  keyCount : raw.keys.length = value 16 raw.addressCount
  keys : ∀ key ∈ raw.keys, key.length = 40
  count : raw.count.length = 4
  lineCount : raw.lines.length = value 16 raw.count
  lines : List.Forall₂ (RawLine.Reads (raw.keys.map addressOfKey)) raw.lines receipts

end RawBlob

/-! ## Taking a blob apart -/

theorem takeMantissa_eq_ok {length : Nat} {hex mantissa rest : Text}
    (h : takeMantissa length hex = .ok (mantissa, rest)) :
    hex = mantissa ++ rest ∧ mantissa.length = length * 2 := by
  unfold takeMantissa at h
  split at h
  · rename_i hzero
    cases h
    exact ⟨rfl, by simp [hzero]⟩
  · exact take_eq_ok.1 h

theorem lookup_eq_ok {addresses : List Text} {index : Nat} {address : Text} :
    lookup addresses index = .ok address ↔ addresses[index]? = some address := by
  unfold lookup
  cases addresses[index]? with
  | none => simp
  | some found => simp

theorem takeAddresses_eq_ok {count : Nat} {hex rest : Text} {addresses : List Text}
    (h : takeAddresses count hex = .ok (addresses, rest)) :
    ∃ keys : List Text, hex = keys.flatten ++ rest ∧ keys.length = count ∧
      (∀ key ∈ keys, key.length = 40) ∧
      addresses = keys.map addressOfKey := by
  induction count generalizing hex addresses with
  | zero =>
      cases h
      exact ⟨[], rfl, rfl, by simp, rfl⟩
  | succ count ih =>
      simp only [takeAddresses, bind_eq_ok, pure_eq_ok, Prod.exists, Prod.mk.injEq] at h
      rcases h with ⟨key, behind, hkey, others, tail, hothers, rfl, rfl⟩
      rcases take_eq_ok.1 hkey with ⟨rfl, hlength⟩
      rcases ih hothers with ⟨keys, rfl, hcount, hkeys, rfl⟩
      refine ⟨key :: keys, by simp, by simp [hcount], ?_, rfl⟩
      intro k hk
      rcases List.mem_cons.1 hk with rfl | hk
      · exact hlength
      · exact hkeys k hk

theorem unpackReceipt_reads {addresses : List Text} {hex rest : Text} {receipt : PackableReceipt}
    (h : unpackReceipt addresses hex = .ok (receipt, rest)) :
    ∃ line : RawLine, hex = line.text ++ rest ∧ line.Reads addresses receipt := by
  simp only [unpackReceipt, bind_eq_ok, require_eq_ok, exists_const, pure_eq_ok, Prod.exists,
    Prod.mk.injEq, lookup_eq_ok] at h
  -- one cut for each field, with what is left behind it
  rcases h with ⟨hash, h₁, hhash, payer, h₂, hpayer, payerAt, hpayerAt, payee, h₃, hpayee, payeeAt,
    hpayeeAt, exponent, h₄, hexponent, length, h₅, hlength, hshort, mantissa, h₆, hmantissa, hfits,
    rfl, rfl⟩
  rcases take_eq_ok.1 hhash with ⟨rfl, whash⟩
  rcases take_eq_ok.1 hpayer with ⟨rfl, wpayer⟩
  rcases take_eq_ok.1 hpayee with ⟨rfl, wpayee⟩
  rcases take_eq_ok.1 hexponent with ⟨rfl, wexponent⟩
  rcases take_eq_ok.1 hlength with ⟨rfl, wlength⟩
  rcases takeMantissa_eq_ok hmantissa with ⟨rfl, wmantissa⟩
  refine ⟨⟨hash, payer, payee, exponent, length, mantissa⟩, by simp [RawLine.text],
    whash, wpayer, wpayee, wexponent, wlength, wmantissa, hshort, hfits, hpayerAt, hpayeeAt, rfl, rfl⟩

theorem unpackBody_reads {addresses : List Text} {count : Nat} {hex rest : Text}
    {receipts : List PackableReceipt} (h : unpackBody addresses count hex = .ok (receipts, rest)) :
    ∃ lines : List RawLine, hex = (lines.map RawLine.text).flatten ++ rest ∧ lines.length = count ∧
      List.Forall₂ (RawLine.Reads addresses) lines receipts := by
  induction count generalizing hex receipts with
  | zero =>
      cases h
      exact ⟨[], rfl, rfl, .nil⟩
  | succ count ih =>
      simp only [unpackBody, bind_eq_ok, pure_eq_ok, Prod.exists, Prod.mk.injEq] at h
      rcases h with ⟨receipt, behind, hreceipt, others, tail, hothers, rfl, rfl⟩
      rcases unpackReceipt_reads hreceipt with ⟨line, rfl, hline⟩
      rcases ih hothers with ⟨lines, rfl, hcount, hlines⟩
      exact ⟨line :: lines, by simp, by simp [hcount], .cons hline hlines⟩

/-- The decoder has read the whole blob when it returns, and its parts are as demanded. -/
theorem decodes_of_unpack {blob : Text} {receipts : List PackableReceipt}
    (h : unpackReceiptsCompact blob = .ok receipts) :
    blobPattern blob = true ∧
      ∃ raw : RawBlob, toLowerCase (blob.drop 2) = raw.text ∧ raw.Decodes receipts := by
  simp only [unpackReceiptsCompact, bind_eq_ok, require_eq_ok, exists_const, pure_eq_ok,
    Prod.exists] at h
  rcases h with ⟨hpattern, version, h₁, hversion, hcompact, addressCount, h₂, haddressCount,
    addresses, h₃, haddresses, count, h₄, hcount, received, h₅, hbody, hend, rfl⟩
  rcases take_eq_ok.1 hversion with ⟨hblob, wversion⟩
  rcases take_eq_ok.1 haddressCount with ⟨rfl, waddressCount⟩
  rcases takeAddresses_eq_ok haddresses with ⟨keys, rfl, hkeyCount, hkeys, rfl⟩
  rcases take_eq_ok.1 hcount with ⟨rfl, wcount⟩
  rcases unpackBody_reads hbody with ⟨lines, rfl, hlineCount, hlines⟩
  obtain rfl : h₅ = [] := List.length_eq_zero_iff.1 hend
  refine ⟨hpattern, ⟨version, addressCount, keys, count, lines⟩, ?_, wversion, hcompact,
    waddressCount, hkeyCount, hkeys, wcount, hlineCount, hlines⟩
  rw [hblob, List.append_nil]
  rfl

/-! ## What is accepted can be packed -/

/-- The parts of a blob are written in lower-case hex. -/
structure LowerHex (s : Text) : Prop where
  digits : ∀ c ∈ s, c ∈ hexDigits
  lower : ∀ c ∈ s, c.toLower = c

theorem LowerHex.mono {s t : Text} (h : LowerHex t) (hsub : s ⊆ t) : LowerHex s :=
  ⟨fun c hc => h.digits c (hsub hc), fun c hc => h.lower c (hsub hc)⟩

theorem lowerHex_of_blobPattern {blob : Text} (h : blobPattern blob = true) :
    LowerHex (toLowerCase (blob.drop 2)) ∧ blob.length = (toLowerCase (blob.drop 2)).length + 2 := by
  unfold blobPattern at h
  split at h
  · rename_i hex
    simp only [Bool.and_eq_true, List.all_eq_true] at h
    refine ⟨⟨?_, ?_⟩, by simp⟩
    · intro c hc
      rcases List.mem_map.1 hc with ⟨d, hd, rfl⟩
      exact toLower_mem_hexDigits (isHexDigit_iff.1 (h.2 d hd))
    · intro c hc
      rcases List.mem_map.1 hc with ⟨d, hd, rfl⟩
      exact toLower_toLower_hexDigits (isHexDigit_iff.1 (h.2 d hd))
  · cases h

theorem LowerHex.value_lt {s : Text} (h : LowerHex s) : value 16 s < 16 ^ s.length := by
  refine value_lt_pow ?_
  intro c hc
  refine forall_mem_hexDigits (P := fun c => digitVal c < 16) ?_ (h.digits c hc)
  simp only [hexDigits, List.Forall]
  decide

theorem LowerHex.hexPattern {s : Text} (h : LowerHex s) :
    Strings.hexPattern s.length ('0' :: 'x' :: s) = true :=
  hexPattern_iff.2 ⟨s, rfl, rfl, h.digits⟩

theorem LowerHex.toLowerCase_eq {s : Text} (h : LowerHex s) :
    toLowerCase ('0' :: 'x' :: s) = '0' :: 'x' :: s := by
  have hs : toLowerCase s = s := toLowerCase_eq_self h.lower
  show '0' :: 'x' :: toLowerCase s = _
  rw [hs]

namespace RawLine.Reads

variable {keys : List Text} {line : RawLine} {receipt : PackableReceipt}
  (h : line.Reads (keys.map addressOfKey) receipt)

include h

/-- The two addresses of a receipt stand in the dictionary. -/
theorem payer_mem : ∃ key ∈ keys, receipt.payer = addressOfKey key := by
  rcases List.mem_map.1 (List.mem_of_getElem? h.payerAt) with ⟨key, hkey, heq⟩
  exact ⟨key, hkey, heq.symm⟩

theorem payee_mem : ∃ key ∈ keys, receipt.payee = addressOfKey key := by
  rcases List.mem_map.1 (List.mem_of_getElem? h.payeeAt) with ⟨key, hkey, heq⟩
  exact ⟨key, hkey, heq.symm⟩

theorem amountOf_eq : amountOf receipt = line.amount := by
  simp [amountOf, h.amountMinor, bigInt]

variable (hkeys : ∀ key ∈ keys, key.length = 40 ∧ LowerHex key) (hhash : LowerHex line.hash)

include hkeys hhash

theorem packable : Packable receipt where
  receiptHash := by
    rw [h.receiptHash, ← h.hash]
    exact hhash.hexPattern
  payer := by
    rcases h.payer_mem with ⟨key, hkey, heq⟩
    rw [heq, ← (hkeys key hkey).1]
    exact (hkeys key hkey).2.hexPattern
  payee := by
    rcases h.payee_mem with ⟨key, hkey, heq⟩
    rw [heq, ← (hkeys key hkey).1]
    exact (hkeys key hkey).2.hexPattern
  amountMinor := by
    rw [h.amountMinor]
    exact ⟨line.amount, rfl, h.fits⟩

/-- What was decoded is in lower case already. -/
theorem lowerCased_eq : lowerCased receipt = receipt := by
  rcases h.payer_mem with ⟨payer, hpayer, hpayerEq⟩
  rcases h.payee_mem with ⟨payee, hpayee, hpayeeEq⟩
  have hpayerLower := (hkeys payer hpayer).2.toLowerCase_eq
  have hpayeeLower := (hkeys payee hpayee).2.toLowerCase_eq
  have hhashLower := hhash.toLowerCase_eq
  rcases receipt with ⟨receiptHash, p, q, amountMinor⟩
  have hamount : amountMinor = .bigint line.amount := h.amountMinor
  have hreceiptHash : receiptHash = '0' :: 'x' :: line.hash := h.receiptHash
  rw [lowerCased, h.amountOf_eq]
  subst hamount hreceiptHash hpayerEq hpayeeEq
  simp only [addressOfKey, hpayerLower, hpayeeLower, hhashLower]

end RawLine.Reads

/-! ## Canonical mantissas are the smallest -/

theorem stripZeros_mod {mantissa : Nat} (exponent : Nat) (h : 0 < mantissa) :
    (stripZeros mantissa exponent).1 % 10 ≠ 0 := by
  induction mantissa, exponent using stripZeros.induct with
  | case1 mantissa exponent hloop ih =>
      rw [stripZeros, if_pos hloop]
      exact ih (by omega)
  | case2 mantissa exponent hexit =>
      rw [stripZeros, if_neg hexit]
      omega

/-- No other mantissa of the same amount is smaller. -/
theorem toScientific_le {mantissa exponent : Nat} (h : 0 < mantissa * 10 ^ exponent) :
    (toScientific (mantissa * 10 ^ exponent)).1 ≤ mantissa := by
  have hvalue := toScientific_value (mantissa * 10 ^ exponent)
  have hmod : (toScientific (mantissa * 10 ^ exponent)).1 % 10 ≠ 0 := by
    rw [toScientific, if_neg (Nat.ne_of_gt h)]
    exact stripZeros_mod 0 h
  generalize (toScientific (mantissa * 10 ^ exponent)).1 = least at hvalue hmod ⊢
  generalize (toScientific (mantissa * 10 ^ exponent)).2 = most at hvalue
  -- the exponents differ by a power of ten, which one of the two mantissas has more
  rcases Nat.le_total exponent most with hle | hle
  · obtain ⟨k, rfl⟩ := Nat.exists_eq_add_of_le hle
    have hcancel : least * 10 ^ k = mantissa := by
      refine Nat.eq_of_mul_eq_mul_right (Nat.pow_pos (by decide) : 0 < 10 ^ exponent) ?_
      rw [← hvalue, Nat.pow_add]
      ring
    rw [← hcancel]
    exact Nat.le_mul_of_pos_right _ (Nat.pow_pos (by decide))
  · -- a zero of the given mantissa cannot be one that the least one still has
    obtain ⟨k, rfl⟩ := Nat.exists_eq_add_of_le hle
    have hcancel : least = mantissa * 10 ^ k := by
      refine Nat.eq_of_mul_eq_mul_right (Nat.pow_pos (by decide) : 0 < 10 ^ most) ?_
      rw [hvalue, Nat.pow_add]
      ring
    cases k with
    | zero =>
        rw [hcancel, Nat.pow_zero, Nat.mul_one]
    | succ k =>
        rw [hcancel, Nat.pow_succ, ← Nat.mul_assoc, Nat.mul_mod_left] at hmod
        exact absurd rfl hmod

theorem length_evenHex_of_lt {n width : Nat} (hn : n < 16 ^ width) (hwidth : 0 < width)
    (heven : width % 2 = 0) : (evenHex n).length ≤ width := by
  have hdigits : (Nat.toDigits 16 n).length ≤ width :=
    (Nat.length_toDigits_le_iff (by decide) hwidth).2 hn
  rw [length_evenHex]
  omega

/-- The mantissa that is written takes no more room than the one that was read. -/
theorem RawLine.Reads.length_mantissaHex {addresses : List Text} {line : RawLine}
    {receipt : PackableReceipt} (h : line.Reads addresses receipt) (hmantissa : LowerHex line.mantissa) :
    (mantissaHex (toScientific (amountOf receipt)).1).length ≤ line.mantissa.length := by
  have hamount : amountOf receipt = line.amount := by
    simp [amountOf, h.amountMinor, bigInt]
  rw [hamount]
  by_cases hzero : line.amount = 0
  · simp [hzero, toScientific, mantissaHex]
  · have hpos : 0 < line.amount := Nat.pos_of_ne_zero hzero
    have hle : (toScientific line.amount).1 ≤ value 16 line.mantissa := toScientific_le hpos
    -- a smaller number fits into the width that is there already, which is even
    have hlt : (toScientific line.amount).1 < 16 ^ line.mantissa.length :=
      Nat.lt_of_le_of_lt hle hmantissa.value_lt
    have heven : line.mantissa.length % 2 = 0 := by
      rw [h.mantissa]
      omega
    have hwidth : 0 < line.mantissa.length := by
      rw [List.length_pos_iff]
      rintro hnil
      rw [RawLine.amount, hnil] at hpos
      simp at hpos
    unfold mantissaHex
    split
    · exact Nat.zero_le _
    · exact length_evenHex_of_lt hlt hwidth heven

/-! ## The blob that is written -/

theorem length_receiptLine {d : AddressIndex} {receipt : PackableReceipt} (h : Packable receipt)
    (hd : d.length ≤ maxAddresses) :
    (receiptLine d receipt).length =
      72 + (mantissaHex (toScientific (amountOf receipt)).1).length := by
  have hindex : ∀ key, (byte (d.idxOf key)).length = 2 := fun key =>
    length_byte (Nat.lt_of_le_of_lt (List.idxOf_le_length.trans hd) (by decide))
  have hbounds := toScientific_bounds h.bigInt_eq.2
  have hexponent : (byte (toScientific (amountOf receipt)).2).length = 2 := length_byte (by omega)
  have hle := length_mantissaHex_le hbounds.1
  have hlength : (byte ((mantissaHex (toScientific (amountOf receipt)).1).length / 2)).length = 2 :=
    length_byte (by omega)
  simp only [receiptLine, List.length_append, length_drop_of_hexPattern h.receiptHash, hindex,
    hexponent, hlength]

theorem RawLine.Reads.length_text {addresses : List Text} {line : RawLine}
    {receipt : PackableReceipt} (h : line.Reads addresses receipt) :
    line.text.length = 72 + line.mantissa.length := by
  simp only [RawLine.text, List.length_append, h.hash, h.payer, h.payee, h.exponent, h.length]
  omega

/-- Line by line, what is written is no longer than what was read. -/
theorem length_lines_le {addresses : List Text} {d : AddressIndex} (hd : d.length ≤ maxAddresses)
    {lines : List RawLine} {receipts : List PackableReceipt}
    (h : List.Forall₂ (RawLine.Reads addresses) lines receipts)
    (hlines : ∀ line ∈ lines, LowerHex line.mantissa) (hall : ∀ r ∈ receipts, Packable r) :
    (receipts.map (receiptLine d)).flatten.length ≤ (lines.map RawLine.text).flatten.length := by
  induction h with
  | nil => exact le_refl _
  | cons hline _ ih =>
      have hrest := ih (fun l hl => hlines l (List.mem_cons_of_mem _ hl))
        (fun r hr => hall r (List.mem_cons_of_mem _ hr))
      have hhead := hline.length_mantissaHex (hlines _ List.mem_cons_self)
      simp only [List.map_cons, List.flatten_cons, List.length_append, hline.length_text,
        length_receiptLine (hall _ List.mem_cons_self) hd]
      omega

theorem length_flatten_keys {keys : List Text} (h : ∀ key ∈ keys, key.length = 40) :
    keys.flatten.length = 40 * keys.length := by
  induction keys with
  | nil => rfl
  | cons key keys ih =>
      rw [List.flatten_cons, List.length_append, h key List.mem_cons_self,
        ih (fun k hk => h k (List.mem_cons_of_mem key hk)), List.length_cons]
      omega

namespace RawBlob

/-! ### The parts of a blob are parts of its text -/

theorem keys_subset (raw : RawBlob) {key : Text} (h : key ∈ raw.keys) : key ⊆ raw.text := by
  intro c hc
  simp only [text, List.mem_append]
  exact Or.inr (Or.inr (Or.inl (List.mem_flatten_of_mem h hc)))

theorem line_subset (raw : RawBlob) {line : RawLine} (h : line ∈ raw.lines) :
    line.text ⊆ raw.text := by
  intro c hc
  simp only [text, List.mem_append]
  exact Or.inr (Or.inr (Or.inr (Or.inr
    (List.mem_flatten_of_mem (List.mem_map_of_mem h) hc))))

theorem addressCount_subset (raw : RawBlob) : raw.addressCount ⊆ raw.text := by
  intro c hc
  simp only [text, List.mem_append]
  exact Or.inr (Or.inl hc)

theorem count_subset (raw : RawBlob) : raw.count ⊆ raw.text := by
  intro c hc
  simp only [text, List.mem_append]
  exact Or.inr (Or.inr (Or.inr (Or.inl hc)))

namespace Decodes

variable {raw : RawBlob} {receipts : List PackableReceipt} (h : raw.Decodes receipts)
  (hhex : LowerHex raw.text)

include h hhex

theorem keys_lower : ∀ key ∈ raw.keys, key.length = 40 ∧ LowerHex key :=
  fun key hkey => ⟨h.keys key hkey, hhex.mono (raw.keys_subset hkey)⟩

omit h in
theorem line_lower {line : RawLine} (hline : line ∈ raw.lines) :
    LowerHex line.hash ∧ LowerHex line.mantissa := by
  have htext := hhex.mono (raw.line_subset hline)
  constructor
  · refine htext.mono ?_
    intro c hc
    exact List.mem_append_left _ hc
  · refine htext.mono ?_
    intro c hc
    simp only [RawLine.text, List.mem_append]
    exact Or.inr (Or.inr (Or.inr (Or.inr (Or.inr hc))))

/-- Every receipt was read from a line. -/
theorem line_of_mem {receipt : PackableReceipt} (hmem : receipt ∈ receipts) :
    ∃ line ∈ raw.lines, line.Reads (raw.keys.map addressOfKey) receipt ∧ LowerHex line.hash := by
  rcases List.forall₂_iff_get.1 h.lines with ⟨hlength, hget⟩
  rcases List.mem_iff_get.1 hmem with ⟨i, rfl⟩
  have hi : i.1 < raw.lines.length := by
    rw [hlength]
    exact i.2
  have hline : raw.lines.get ⟨i.1, hi⟩ ∈ raw.lines := List.get_mem _ _
  exact ⟨_, hline, hget i.1 hi i.2, (line_lower hhex hline).1⟩

theorem packable : ∀ receipt ∈ receipts, Packable receipt := by
  intro receipt hmem
  rcases h.line_of_mem hhex hmem with ⟨line, _, hreads, hhash⟩
  exact hreads.packable (h.keys_lower hhex) hhash

theorem map_lowerCased : receipts.map lowerCased = receipts := by
  have hsame : ∀ receipt ∈ receipts, lowerCased receipt = id receipt := by
    intro receipt hmem
    rcases h.line_of_mem hhex hmem with ⟨line, _, hreads, hhash⟩
    exact hreads.lowerCased_eq (h.keys_lower hhex) hhash
  rw [List.map_congr_left hsame, List.map_id]

/-- The dictionary that is written has no entry that was not read. -/
theorem dictionary_subset : dictionaryOf receipts ⊆ raw.keys := by
  have hkey : ∀ {address : Text}, (∃ key ∈ raw.keys, address = addressOfKey key) →
      addressKey address ∈ raw.keys := by
    rintro address ⟨key, hmem, rfl⟩
    have hlower : addressKey (addressOfKey key) = key :=
      toLowerCase_eq_self (h.keys_lower hhex key hmem).2.lower
    rw [hlower]
    exact hmem
  intro key hmem
  refine forall_mem_addressKeys ?_ ?_ key (mem_dictionaryOf.1 hmem)
  · intro receipt hr
    rcases h.line_of_mem hhex hr with ⟨line, _, hreads, _⟩
    exact hkey hreads.payer_mem
  · intro receipt hr
    rcases h.line_of_mem hhex hr with ⟨line, _, hreads, _⟩
    exact hkey hreads.payee_mem

theorem length_dictionary : (dictionaryOf receipts).length ≤ raw.keys.length :=
  ((nodup_internAll _ List.nodup_nil).subperm (h.dictionary_subset hhex)).length_le

theorem packableBatch : PackableBatch receipts where
  count := by
    have hlt := (hhex.mono raw.count_subset).value_lt
    rw [h.count, ← h.lineCount, h.lines.length_eq] at hlt
    omega
  packable := h.packable hhex
  addresses := by
    have hlt := (hhex.mono raw.addressCount_subset).value_lt
    rw [h.addressCount, ← h.keyCount] at hlt
    have hless := h.length_dictionary hhex
    rw [card_addresses (h.packable hhex)]
    omega

/-- The blob that is written is no longer than the one that was read. -/
theorem length_blobHex : (blobHex receipts).length ≤ raw.text.length := by
  have hbatch := h.packableBatch hhex
  have hd := hbatch.length_dictionaryOf
  have hdictionary : (dictionaryOf receipts).flatten.length = 40 * (dictionaryOf receipts).length :=
    length_flatten_keys fun key hkey => h.keys key (h.dictionary_subset hhex hkey)
  have hcount : (byte (dictionaryOf receipts).length).length = 2 :=
    length_byte (Nat.lt_of_le_of_lt hd (by decide))
  have hversion : (byte compactVersion).length = 2 := length_byte (by decide)
  have hlines := length_lines_le hd h.lines (fun line hline => (line_lower hhex hline).2)
    hbatch.packable
  have hless := h.length_dictionary hhex
  simp only [blobHex, compactHeader, text, List.length_append, hversion, hcount, hdictionary,
    length_countField hbatch.count, h.version, h.addressCount, length_flatten_keys h.keys, h.count]
  omega

end Decodes

end RawBlob

/-- The decoder reads a blob to its end or throws.  What it returns can be packed; the blob this gives
is read as the same receipts, is no longer than the one that was read, and is the blob of what is read
from it. -/
theorem decoding_canonicalises (keccak : Keccak) (blob : Text) :
    ((∃ receipts, unpackReceiptsCompact blob = .ok receipts) ∨
      ∃ message, unpackReceiptsCompact blob = .error message) ∧
    ∀ receipts, unpackReceiptsCompact blob = .ok receipts →
      (∃ raw : RawBlob, raw.Decodes receipts ∧ toLowerCase (blob.drop 2) = raw.text) ∧
      ∃ batch, packReceiptsCompact keccak receipts = .ok batch ∧
        unpackReceiptsCompact batch.blob = .ok receipts ∧ batch.blob.length ≤ blob.length ∧
        ∀ again, unpackReceiptsCompact batch.blob = .ok again →
          ∃ batch', packReceiptsCompact keccak again = .ok batch' ∧ batch'.blob = batch.blob := by
  constructor
  · cases unpackReceiptsCompact blob with
    | ok receipts => exact Or.inl ⟨receipts, rfl⟩
    | error message => exact Or.inr ⟨message, rfl⟩
  · intro receipts h
    -- what was read is a batch, and a batch is read back from its own blob
    rcases decodes_of_unpack h with ⟨hpattern, raw, htext, hraw⟩
    rcases lowerHex_of_blobPattern hpattern with ⟨hhex, hlength⟩
    rw [htext] at hhex hlength
    have hbatch := hraw.packableBatch hhex
    have hread : unpackReceiptsCompact (blobOf receipts) = .ok receipts := by
      rw [unpackReceiptsCompact_blobOf hbatch, hraw.map_lowerCased hhex]
    refine ⟨⟨raw, hraw, htext⟩, ?_⟩
    rcases (packReceiptsCompact_isOk_iff keccak receipts).2 hbatch with ⟨batch, hpack⟩
    rcases packReceiptsCompact_eq_ok.1 hpack with ⟨_, root, _, rfl⟩
    refine ⟨_, hpack, hread, ?_, ?_⟩
    · have hshort := hraw.length_blobHex hhex
      show (blobHex receipts).length + 1 + 1 ≤ blob.length
      omega
    · intro again hagain
      obtain rfl : receipts = again := Except.ok.inj (hread.symm.trans hagain)
      exact ⟨_, hpack, rfl⟩

/-- One receipt over a dictionary with an entry twice, in upper case, and `0x0014` with exponent 1 for
an amount of 200. -/
def sampleBlob : Text :=
  '0' :: 'x' :: ("0202".toList ++ List.replicate 40 'C' ++ List.replicate 40 'C' ++ "0001".toList ++
    List.replicate 64 'A' ++ "000101020014".toList)

theorem decoding_canonicalises_sampleBlob :
    ∃ receipts batch, unpackReceiptsCompact sampleBlob = .ok receipts ∧
      packReceiptsCompact sampleKeccak receipts = .ok batch ∧
      unpackReceiptsCompact batch.blob = .ok receipts ∧
      batch.blob.length ≤ sampleBlob.length := by
  have hok : (unpackReceiptsCompact sampleBlob).isOk = true := by decide +kernel
  cases hread : unpackReceiptsCompact sampleBlob with
  | error message =>
      rw [hread] at hok
      cases hok
  | ok receipts =>
      rcases ((decoding_canonicalises sampleKeccak sampleBlob).2 receipts hread).2 with
        ⟨batch, hpack, hagain, hlength, _⟩
      exact ⟨receipts, batch, rfl, hpack, hagain, hlength⟩

end Settlement
end PaymentRail
