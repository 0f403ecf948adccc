import PaymentRail.Contracts.HubStorage
import PaymentRail.Strings.BigInt

/-!
# AccessList — the slots announced for a settlement

This module embeds `settlement/access-list.util.ts`.  `keccak256` and `getAddress` come from a library
and are parameters.

`buildSettlementAccessList` is about a layout of its own: `escrows` in slot 0, and two mappings behind
it that the contract does not have.  In the contract `owner` comes first, so no slot that `settleBatch`
touches is announced, whatever the hashes are (`access_list_misses`).
-/

namespace PaymentRail
namespace AccessList

open Machine Strings Contracts
open Receipts (Keccak getBytes)

/-! ## The functions of the source -/

def slotEscrows : Nat := 0

def slotSettledBatches : Nat := 1

def slotTotalSettled : Nat := 2

def escrowStructFields : Nat := 6

structure SettlementAccessListInput where
  escrowHubAddress : Text
  escrowIdHash : Text
  receiptsHash : Text

structure AccessListEntry where
  address : Text
  storageKeys : List Text
  deriving DecidableEq

section Functions

variable (keccak : Keccak) (getAddress : Text → Except String Text)

/-- `zeroPadValue(toBeHex(n), 32)` -/
def zeroPadWord (n : Int) : Except String Text :=
  if 0 ≤ n ∧ n < 2 ^ 256 then .ok (hexWord n.toNat) else .error "padding exceeds data length"

def mappingSlot (key : Text) (slot : Nat) : Text :=
  hexWord (keccak (getBytes key ++ getBytes (hexWord slot)))

def addToSlot (base : Text) (offset : Nat) : Except String Text := do
  let baseBig ← bigInt (.string base)
  zeroPadWord (baseBig + offset)

def buildSettlementAccessList (input : SettlementAccessListInput) :
    Except String (List AccessListEntry) := do
  let escrowsBase := mappingSlot keccak input.escrowIdHash slotEscrows
  let escrowStructKeys ← (List.range escrowStructFields).mapM (addToSlot escrowsBase)
  let settledBatchesSlot := mappingSlot keccak input.receiptsHash slotSettledBatches
  let totalSettledSlot := mappingSlot keccak input.escrowIdHash slotTotalSettled
  let address ← getAddress input.escrowHubAddress
  return [{ address, storageKeys := escrowStructKeys ++ [settledBatchesSlot, totalSettledSlot] }]

end Functions

/-! ## Words as texts -/

theorem value_hexWord (n : Nat) : value 16 ((hexWord n).drop 2) = n := by
  simp only [hexWord, List.drop_succ_cons, List.drop_zero, value_padStart]
  exact value_toDigits (by decide) (by decide) n

theorem hexWord_injective {m n : Nat} (h : hexWord m = hexWord n) : m = n := by
  rw [← value_hexWord m, h, value_hexWord]

theorem bigInt_hexWord {n : Nat} (h : n < 2 ^ 256) : bigInt (.string (hexWord n)) = .ok (n : Int) := by
  rcases hexPattern_iff.1 (hexPattern_hexWord h) with ⟨digits, hword, hlength, hdigits⟩
  have hne : digits ≠ [] := fun hnil => absurd hlength (by simp [hnil])
  have hvalue : value 16 digits = n := by
    have hdrop := value_hexWord n
    rwa [hword] at hdrop
  rw [hword, bigInt_hex hne hdigits, hvalue]

/-! ## Hashed slots -/

/-- The first slots behind two words are different ones. -/
def Apart (a b : Bytes32) : Prop := ∀ i < 16, ∀ j < 16, slotAt a i ≠ slotAt b j

/-- The values of a mapping do not run into the state variables, nor into each other. -/
structure Scattered (keccak : Keccak) (used : List (Bytes32 × Nat)) : Prop where
  fixed : ∀ x ∈ used, Apart (mappingValue keccak x.1 x.2) 0
  hashed : ∀ x ∈ used, ∀ y ∈ used, x ≠ y →
    Apart (mappingValue keccak x.1 x.2) (mappingValue keccak y.1 y.2)

theorem slotAt_zero (base : Bytes32) : slotAt base 0 = base := by
  refine Fin.ext ?_
  rw [val_slotAt]
  exact Nat.mod_eq_of_lt base.isLt

/-- Behind a hashed slot the numbering does not start again. -/
theorem val_slotAt_of_apart {base : Bytes32} (h : Apart base 0) {i : Nat} (hi : i < 16) :
    (slotAt base i).val = base.val + i ∧ base.val + i < 2 ^ 256 := by
  have hbound : base.val + i < 2 ^ 256 := by
    by_contra hover
    have hbase := base.isLt
    -- one of the slots in between would be slot 0
    have hwrap : slotAt base (2 ^ 256 - base.val) = slotAt 0 0 := by
      refine Fin.ext ?_
      rw [val_slotAt, slotAt_zero, Nat.add_sub_cancel' (le_of_lt hbase), Nat.mod_self]
      rfl
    exact h (2 ^ 256 - base.val) (by omega) 0 (by decide) hwrap
  refine ⟨?_, hbound⟩
  rw [val_slotAt]
  exact Nat.mod_eq_of_lt hbound

theorem addToSlot_hexWord {base : Bytes32} (h : Apart base 0) {i : Nat} (hi : i < 16) :
    addToSlot (hexWord base) i = .ok (hexWord (slotAt base i)) := by
  rcases val_slotAt_of_apart h hi with ⟨hvalue, hbound⟩
  -- the text is read as a number, and the sum still fits a word
  have hnonneg : (0 : Int) ≤ (base.val : Int) + (i : Int) := by omega
  have hlt : (base.val : Int) + (i : Int) < 2 ^ 256 := by exact_mod_cast hbound
  rw [addToSlot, bigInt_hexWord base.isLt, ok_bind, zeroPadWord, if_pos ⟨hnonneg, hlt⟩, hvalue]
  rfl

/-! ## What is announced -/

/-- A slot as it is written in an access list. -/
def keyOf (slot : Bytes32) : Text := hexWord slot.val

/-- The slots of the list. -/
def announced (keccak : Keccak) (escrowId receiptsHash : Bytes32) : List Bytes32 :=
  (List.range escrowStructFields).map (slotAt (mappingValue keccak escrowId slotEscrows)) ++
    [mappingValue keccak receiptsHash slotSettledBatches, mappingValue keccak escrowId slotTotalSettled]

section Announced

variable {keccak : Keccak} {getAddress : Text → Except String Text}
  {input : SettlementAccessListInput} {escrowId receiptsHash : Bytes32} {address : Text}

theorem mappingSlot_eq {key : Text} {word : Bytes32} (h : getBytes key = wordBytes word) (slot : Nat) :
    mappingSlot keccak key slot = hexWord (mappingValue keccak word slot) := by
  rw [mappingSlot, mappingValue, h]
  rfl

theorem build_eq (hid : getBytes input.escrowIdHash = wordBytes escrowId)
    (hreceipts : getBytes input.receiptsHash = wordBytes receiptsHash)
    (haddress : getAddress input.escrowHubAddress = .ok address)
    (hapart : Apart (mappingValue keccak escrowId slotEscrows) 0) :
    buildSettlementAccessList keccak getAddress input =
      .ok [⟨address, (announced keccak escrowId receiptsHash).map keyOf⟩] := by
  have hkeys : (List.range escrowStructFields).mapM
      (addToSlot (hexWord (mappingValue keccak escrowId slotEscrows))) =
        .ok ((List.range escrowStructFields).map fun i =>
          hexWord (slotAt (mappingValue keccak escrowId slotEscrows) i)) := by
    rw [mapM_eq_ok, List.forall₂_map_right_iff, List.forall₂_same]
    intro i hi
    have hfield : i < escrowStructFields := List.mem_range.1 hi
    exact addToSlot_hexWord hapart (lt_trans hfield (by decide))
  simp only [buildSettlementAccessList, mappingSlot_eq hid, mappingSlot_eq hreceipts, hkeys, haddress,
    ok_bind, announced]
  simp [pure, Except.pure, keyOf]

theorem keyOf_mem_map {slot : Bytes32} {slots : List Bytes32} :
    keyOf slot ∈ slots.map keyOf ↔ slot ∈ slots :=
  List.mem_map_of_injective fun _ _ h => Fin.ext (hexWord_injective h)

/-- The mapping values behind the list and behind `settleBatch`. -/
def usedValues (escrowId receiptsHash : Bytes32) : List (Bytes32 × Nat) :=
  [(escrowId, slotEscrows), (escrowId, slotTotalSettled), (receiptsHash, slotSettledBatches),
    (escrowId, StateVariable.escrows.place.slot)]

/-- A slot of the contract's session is not announced, the first one apart. -/
theorem slotAt_not_announced (h : Scattered keccak (usedValues escrowId receiptsHash)) {k : Nat}
    (hk : k < 16) (hfirst : k ≠ 0) :
    slotAt (escrowBase keccak escrowId) k ∉ announced keccak escrowId receiptsHash := by
  have hbase : (escrowId, StateVariable.escrows.place.slot) ∈ usedValues escrowId receiptsHash := by
    simp [usedValues]
  have hslot : StateVariable.escrows.place.slot = 1 := by decide
  intro hmem
  -- a field of the announced struct, or one of the two mapping values
  rcases List.mem_append.1 hmem with hstruct | hother
  · rcases List.mem_map.1 hstruct with ⟨i, hi, heq⟩
    have hlt : i < 16 := lt_trans (List.mem_range.1 hi) (by decide)
    exact h.hashed (escrowId, slotEscrows) (by simp [usedValues]) _ hbase
      (by simp [slotEscrows, hslot]) i hlt k hk heq
  · rcases List.mem_cons.1 hother with heq | hother
    · by_cases hsame : receiptsHash = escrowId
      · -- the same key in the same slot: the announced slot is the first one of the session
        have hzero : slotAt (escrowBase keccak escrowId) k = slotAt (escrowBase keccak escrowId) 0 := by
          rw [heq, hsame, slotAt_zero, escrowBase, hslot]
          rfl
        exact slotAt_ne hk (by decide) hfirst hzero
      · refine h.hashed _ hbase (receiptsHash, slotSettledBatches) (by simp [usedValues]) ?_ k hk 0
          (by decide) ?_
        · exact fun hpair => hsame (Prod.mk.inj hpair).1.symm
        · rw [slotAt_zero]
          exact heq
    · refine h.hashed _ hbase (escrowId, slotTotalSettled) (by simp [usedValues]) ?_ k hk 0
        (by decide) ?_
      · simp [slotTotalSettled, hslot]
      · rw [slotAt_zero]
        exact List.mem_singleton.1 hother

theorem feePercentSlot_not_announced (h : Scattered keccak (usedValues escrowId receiptsHash)) :
    feePercentSlot ∉ announced keccak escrowId receiptsHash := by
  have hfee : StateVariable.feePercent.place.slot < 16 := by decide
  intro hmem
  rcases List.mem_append.1 hmem with hstruct | hother
  · rcases List.mem_map.1 hstruct with ⟨i, hi, heq⟩
    have hlt : i < 16 := lt_trans (List.mem_range.1 hi) (by decide)
    exact h.fixed (escrowId, slotEscrows) (by simp [usedValues]) i hlt _ hfee heq
  · rcases List.mem_cons.1 hother with heq | hother
    · refine h.fixed (receiptsHash, slotSettledBatches) (by simp [usedValues]) 0 (by decide) _ hfee ?_
      rw [slotAt_zero]
      exact heq.symm
    · refine h.fixed (escrowId, slotTotalSettled) (by simp [usedValues]) 0 (by decide) _ hfee ?_
      rw [slotAt_zero]
      exact (List.mem_singleton.1 hother).symm

/-- The fee is not stored where the contract writes. -/
theorem feePercentSlot_ne_spent (h : Scattered keccak (usedValues escrowId receiptsHash)) :
    feePercentSlot ≠ fieldSlot (escrowBase keccak escrowId) .spent := by
  have hbase : (escrowId, StateVariable.escrows.place.slot) ∈ usedValues escrowId receiptsHash := by
    simp [usedValues]
  have hfee : StateVariable.feePercent.place.slot < 16 := by decide
  exact (h.fixed _ hbase _ (place_slot_lt .spent) _ hfee).symm

/-- No slot that `settleBatch` touches is announced. -/
theorem touched_not_announced (h : Scattered keccak (usedValues escrowId receiptsHash)) :
    ∀ slot ∈ settleBatchTouches (escrowBase keccak escrowId),
      slot ∉ announced keccak escrowId receiptsHash := by
  have hfield : ∀ field : Field, field.place.slot ≠ 0 →
      fieldSlot (escrowBase keccak escrowId) field ∉ announced keccak escrowId receiptsHash :=
    fun field hfirst => slotAt_not_announced h (place_slot_lt field) hfirst
  intro slot hslot
  simp only [settleBatchTouches, List.mem_cons, List.not_mem_nil, or_false] at hslot
  rcases hslot with rfl | rfl | rfl | rfl | rfl | rfl | rfl | rfl | rfl | rfl
  case inr.inr.inr.inr.inr.inr.inl => exact feePercentSlot_not_announced h
  -- the other slots are fields of the session, none of them the first
  all_goals exact hfield _ (by decide)

end Announced

/-- The storage keys of an access list cover the slots of a run. -/
def Covers (entries : List AccessListEntry) (address : Text) (touched : List Bytes32) : Prop :=
  ∀ slot ∈ touched, ∃ entry ∈ entries, entry.address = address ∧ keyOf slot ∈ entry.storageKeys

/-- Whenever `settleBatch` gets to its payment, the list built for it announces none of the slots that
the contract reads and writes on the way.  The run on slots is this very call: it makes the same payment
and leaves the storage of the same world. -/
theorem access_list_misses {keccak : Keccak} {getAddress : Text → Except String Text}
    {input : SettlementAccessListInput} {address : Text} {escrowId receiptsHash : Bytes32}
    {totalAmount : Nat} {words : Bytes32 → Nat} {w : World} {next : Next}
    (hid : getBytes input.escrowIdHash = wordBytes escrowId)
    (hreceipts : getBytes input.receiptsHash = wordBytes receiptsHash)
    (haddress : getAddress input.escrowHubAddress = .ok address)
    (hscattered : Scattered keccak (usedValues escrowId receiptsHash))
    (hstored : Stored keccak escrowId words w)
    (hsettles : settleBatch escrowId receiptsHash totalAmount w = .ok next) :
    ∃ entries payment s', buildSettlementAccessList keccak getAddress input = .ok entries ∧
      settleBatchSlots keccak escrowId totalAmount ⟨words, []⟩ = .ok (payment, s') ∧
      (∃ w' fee, next = .transfer w' (w.escrows escrowId).agentB payment.value
          (.paid escrowId (w.escrows escrowId).agentB payment.value fee)
          (.settleBatch escrowId receiptsHash totalAmount) ∧
        payment.callee = (w.escrows escrowId).agentB.val ∧ Stored keccak escrowId s'.words w') ∧
      ¬ Covers entries address s'.touched ∧
      ∀ slot ∈ s'.touched, ∀ entry ∈ entries, keyOf slot ∉ entry.storageKeys := by
  have hrun := settleBatchSlots_complete (s := ⟨words, []⟩) hstored hsettles
  rcases hrun with ⟨payment, s', hrun⟩
  have hlist := build_eq hid hreceipts haddress
    (hscattered.fixed (escrowId, slotEscrows) (by simp [usedValues]))
  have htouched : s'.touched = settleBatchTouches (escrowBase keccak escrowId) :=
    (run_settleBatchSlots hrun).2.2.2.2
  have hmissed : ∀ slot ∈ s'.touched, ∀ entry ∈
      [AccessListEntry.mk address ((announced keccak escrowId receiptsHash).map keyOf)],
      keyOf slot ∉ entry.storageKeys := by
    intro slot hslot entry hentry hkey
    rw [htouched] at hslot
    rw [List.mem_singleton.1 hentry] at hkey
    exact touched_not_announced hscattered slot hslot (keyOf_mem_map.1 hkey)
  have hsame : ∃ w' fee, next = .transfer w' (w.escrows escrowId).agentB payment.value
        (.paid escrowId (w.escrows escrowId).agentB payment.value fee)
        (.settleBatch escrowId receiptsHash totalAmount) ∧
      payment.callee = (w.escrows escrowId).agentB.val ∧ Stored keccak escrowId s'.words w' := by
    have hspent := feePercentSlot_ne_spent hscattered
    rcases settleBatchSlots_settles hstored hspent hrun receiptsHash with ⟨w', fee, hworld, hpaid⟩
    exact ⟨w', fee, Except.ok.inj (hsettles.symm.trans hworld), hpaid⟩
  refine ⟨_, payment, s', hlist, hrun, hsame, ?_, hmissed⟩
  intro hcovers
  -- one slot that is touched is enough
  have hfirst : feePercentSlot ∈ s'.touched := by simp [htouched, settleBatchTouches]
  rcases hcovers _ hfirst with ⟨entry, hentry, _, hkey⟩
  exact hmissed _ hfirst entry hentry hkey

/-! The lists of one batch: the hashes of `escrow-1` and `receipts-1`. -/

def sampleId : Bytes32 := 0x697f52b06463f17ad0995bc70cff9574177c4a9d9e720d1d78e52cb0b018c5be

def sampleReceipts : Bytes32 := 0x1c37adb40c205b3b8d8300581ec451296b410010e3ff5b60670c0fad807bcbc0

/-- `keccak256` on the mapping values of the batch. -/
def batchKeccak : Keccak := fun bytes =>
  if bytes = wordBytes sampleId ++ wordBytes 0 then
    0x6761c1b6d5759cc1897ee4c5dab34e8b2cd606d7ce20219f8aab015bbfed25e0
  else if bytes = wordBytes sampleId ++ wordBytes 2 then
    0x6a381cee484fd912747ac6aa10072dac79b934134f01ecce18f7e7991a0356a3
  else if bytes = wordBytes sampleReceipts ++ wordBytes 1 then
    0xa891360204d8bbcced9028485622642b79aefc34782439af10d478a7bdd195a8
  else if bytes = wordBytes sampleId ++ wordBytes 1 then
    0xe4892cf77eefa1f1c39c66ecd48a04ed05bf81c57e55a00491002be8ac54a575
  else 0

def sampleHub : Text := '0' :: 'x' :: List.replicate 40 '1'

def sampleInput : SettlementAccessListInput := ⟨sampleHub, hexWord sampleId, hexWord sampleReceipts⟩

/-- Two words with 16 slots between them, and 16 behind the larger one. -/
def gap (a b : Bytes32) : Bool :=
  (a.val + 16 ≤ b.val && b.val + 16 ≤ 2 ^ 256) || (b.val + 16 ≤ a.val && a.val + 16 ≤ 2 ^ 256)

theorem apart_of_gap {a b : Bytes32} (h : gap a b = true) : Apart a b := by
  intro i hi j hj heq
  have hvalue := congrArg Fin.val heq
  rw [val_slotAt, val_slotAt] at hvalue
  simp only [gap, Bool.or_eq_true, Bool.and_eq_true, decide_eq_true_eq] at h
  -- neither sum wraps, so equal slots would close the gap
  omega

theorem scattered_batchKeccak : Scattered batchKeccak (usedValues sampleId sampleReceipts) := by
  have hfixed : (usedValues sampleId sampleReceipts).all
      (fun x => gap (mappingValue batchKeccak x.1 x.2) 0) = true := by decide +kernel
  have hhashed : (usedValues sampleId sampleReceipts).all (fun x =>
      (usedValues sampleId sampleReceipts).all fun y =>
        x = y || gap (mappingValue batchKeccak x.1 x.2) (mappingValue batchKeccak y.1 y.2)) = true := by
    decide +kernel
  refine ⟨fun x hx => apart_of_gap (List.all_eq_true.1 hfixed x hx), ?_⟩
  intro x hx y hy hne
  have hpair := List.all_eq_true.1 (List.all_eq_true.1 hhashed x hx) y hy
  simp only [Bool.or_eq_true, decide_eq_true_eq] at hpair
  exact apart_of_gap (hpair.resolve_left hne)

/-- An open session of 100 wei. -/
def sampleSession : EscrowSession where
  agentA := 1
  agentB := 2
  deposit := 100
  budgetLimit := 100
  spent := 0
  verificationRequired := false
  ttl := 3600
  createdAt := 1
  active := true
  disputed := false

def sampleWorld : World where
  owner := 3
  escrows := fun _ => sampleSession
  feePercent := 50
  balance := 100
  events := []
  ledger := []

def sampleWords (slot : Bytes32) : Nat :=
  let field := fieldSlot (escrowBase batchKeccak sampleId)
  if slot = feePercentSlot then 50
  else if slot = field .agentA then 1
  else if slot = field .agentB then 2
  else if slot = field .deposit then 100
  else if slot = field .budgetLimit then 100
  else if slot = field .ttl then 3600
  else if slot = field .createdAt then 1
  else if slot = field .active then 1
  else 0

theorem stored_sampleWords : Stored batchKeccak sampleId sampleWords sampleWorld where
  session := by decide +kernel
  feePercent := by decide +kernel

theorem sampleWorld_settles : ∃ next, settleBatch sampleId sampleReceipts 10 sampleWorld = .ok next :=
  ⟨_, rfl⟩

theorem access_list_misses_sampleInput :
    Scattered batchKeccak (usedValues sampleId sampleReceipts) ∧
      Stored batchKeccak sampleId sampleWords sampleWorld ∧
      ∃ entries payment s', buildSettlementAccessList batchKeccak .ok sampleInput = .ok entries ∧
        settleBatchSlots batchKeccak sampleId 10 ⟨sampleWords, []⟩ = .ok (payment, s') ∧
        payment.callee = (sampleWorld.escrows sampleId).agentB.val ∧
        ¬ Covers entries sampleHub s'.touched ∧
        ∀ slot ∈ s'.touched, ∀ entry ∈ entries, keyOf slot ∉ entry.storageKeys := by
  refine ⟨scattered_batchKeccak, stored_sampleWords, ?_⟩
  rcases sampleWorld_settles with ⟨next, hnext⟩
  have hmisses := @access_list_misses batchKeccak .ok sampleInput sampleHub sampleId sampleReceipts 10
    sampleWords sampleWorld next rfl rfl rfl scattered_batchKeccak stored_sampleWords hnext
  rcases hmisses with ⟨entries, payment, s', hlist, hrun, ⟨_, _, _, hcallee, _⟩, hmissed⟩
  exact ⟨entries, payment, s', hlist, hrun, hcallee, hmissed⟩

theorem feePercent_not_announced :
    ∃ entries payment s', buildSettlementAccessList batchKeccak .ok sampleInput = .ok entries ∧
      settleBatchSlots batchKeccak sampleId 10 ⟨sampleWords, []⟩ = .ok (payment, s') ∧
      feePercentSlot ∈ s'.touched ∧ ¬ Covers entries sampleHub s'.touched := by
  have hlist := @build_eq batchKeccak .ok sampleInput sampleId sampleReceipts sampleHub rfl rfl rfl
    (scattered_batchKeccak.fixed (sampleId, slotEscrows) (by simp [usedValues]))
  rcases sampleWorld_settles with ⟨next, hnext⟩
  rcases settleBatchSlots_complete (s := ⟨sampleWords, []⟩) stored_sampleWords hnext with
    ⟨payment, s', hrun⟩
  have hfee : feePercentSlot ∈ s'.touched := by
    rw [(run_settleBatchSlots hrun).2.2.2.2]
    simp [settleBatchTouches]
  refine ⟨_, payment, s', hlist, hrun, hfee, ?_⟩
  intro hcovers
  rcases hcovers _ hfee with ⟨entry, hentry, _, hkey⟩
  rw [List.mem_singleton.1 hentry] at hkey
  exact feePercentSlot_not_announced scattered_batchKeccak (keyOf_mem_map.1 hkey)

end AccessList
end PaymentRail
