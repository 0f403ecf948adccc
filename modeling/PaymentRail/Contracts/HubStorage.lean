import PaymentRail.Contracts.EscrowHub
import PaymentRail.Machine.Storage
import PaymentRail.Receipts.Merkle

/-!
# HubStorage — where EscrowHub keeps its state

This module lays out the state of `contracts/src/EscrowHub.sol` by Solidity's rules: state variables
in the order of their declaration, the fields of a struct packed in order, and the value of a mapping
at `keccak256(key ++ slot)`.  `settleBatchSlots` is `settleBatch` over these slots, up to its value call.

- `settleBatchSlots_touched` : the slots that a run that succeeds reads or writes
- `settleBatchSlots_settles` : it does what `settleBatch` does
-/

namespace PaymentRail
namespace Contracts

open Machine Strings
open Receipts (Keccak getBytes)
open Storage (Place Program pack load store compute)

/-! ## The layout -/

inductive StateVariable where
  | owner
  | escrows
  | feePercent
  deriving DecidableEq

namespace StateVariable

def declared : List StateVariable := [.owner, .escrows, .feePercent]

/-- The bytes a variable takes; a mapping takes a whole slot. -/
def size : StateVariable → Nat
  | .owner => 20
  | .escrows => 32
  | .feePercent => 32

def places : List (StateVariable × Place) := declared.zip (pack (declared.map size))

def place (name : StateVariable) : Place := (places.lookup name).getD ⟨0, 0, 0⟩

end StateVariable

/-- The fields of `EscrowSession`. -/
inductive Field where
  | agentA
  | agentB
  | deposit
  | budgetLimit
  | spent
  | verificationRequired
  | ttl
  | createdAt
  | active
  | disputed
  deriving DecidableEq

namespace Field

def declared : List Field :=
  [.agentA, .agentB, .deposit, .budgetLimit, .spent, .verificationRequired, .ttl, .createdAt,
    .active, .disputed]

def size : Field → Nat
  | .agentA | .agentB => 20
  | .deposit | .budgetLimit | .spent | .ttl | .createdAt => 32
  | .verificationRequired | .active | .disputed => 1

def places : List (Field × Place) := declared.zip (pack (declared.map size))

def place (field : Field) : Place := (places.lookup field).getD ⟨0, 0, 0⟩

end Field

example : Field.declared.map (fun field => field.place.slot) = [0, 1, 2, 3, 4, 5, 6, 7, 8, 8] := by
  decide

/-- The slot `offset` behind another one. -/
def slotAt (base : Bytes32) (offset : Nat) : Bytes32 := base + Fin.ofNat (2 ^ 256) offset

/-- The 32 bytes of a word. -/
def wordBytes (n : Nat) : List UInt8 := getBytes (hexWord n)

/-- Where the value of a mapping begins. -/
def mappingValue (keccak : Keccak) (key : Bytes32) (slot : Nat) : Bytes32 :=
  keccak (wordBytes key ++ wordBytes slot)

section Hub

variable (keccak : Keccak)

/-- `escrows[escrowId]` -/
def escrowBase (escrowId : Bytes32) : Bytes32 :=
  mappingValue keccak escrowId StateVariable.escrows.place.slot

def feePercentSlot : Bytes32 := slotAt 0 StateVariable.feePercent.place.slot

/-- Where a field of a session lies. -/
def fieldSlot (base : Bytes32) (field : Field) : Bytes32 := slotAt base field.place.slot

def loadField (base : Bytes32) (field : Field) : Program Bytes32 Nat := do
  return field.place.read (← load (fieldSlot base field))

/-- What `settleBatch` asks for with `call{value: value}`. -/
structure Payment where
  callee : Nat
  value : Nat
  deriving DecidableEq

/-- `settleBatch` up to its value call. -/
def settleBatchSlots (escrowId : Bytes32) (totalAmount : Nat) : Program Bytes32 Payment := do
  let session := escrowBase keccak escrowId
  compute (require ((← loadField session .active) ≠ 0) "EscrowHub: not active")
  compute (require ((← loadField session .disputed) = 0) "EscrowHub: disputed")
  let afterwards ← compute (checkedAdd (← loadField session .spent) totalAmount)
  compute (require (afterwards ≤ (← loadField session .budgetLimit)) "EscrowHub: exceeds budget")
  let afterwards ← compute (checkedAdd (← loadField session .spent) totalAmount)
  compute (require (afterwards ≤ (← loadField session .deposit)) "EscrowHub: exceeds deposit")
  let fee := (← compute (checkedMul totalAmount (← load feePercentSlot))) / 10000
  let payout ← compute (checkedSub totalAmount fee)
  let spent ← compute (checkedAdd (← loadField session .spent) totalAmount)
  -- `spent` fills its slot
  store (fieldSlot session .spent) spent
  return { callee := ← loadField session .agentB, value := payout }

/-! ## What a run does -/

/-- The value of a field. -/
def fieldOf (words : Bytes32 → Nat) (base : Bytes32) (field : Field) : Nat :=
  field.place.read (words (fieldSlot base field))

/-- The slots that `settleBatch` reads or writes, in order. -/
def settleBatchTouches (base : Bytes32) : List Bytes32 :=
  [fieldSlot base .active, fieldSlot base .disputed, fieldSlot base .spent,
    fieldSlot base .budgetLimit, fieldSlot base .spent, fieldSlot base .deposit, feePercentSlot,
    fieldSlot base .spent, fieldSlot base .spent, fieldSlot base .agentB]

theorem run_loadField {base : Bytes32} {field : Field} {s s' : Storage.State Bytes32} {value : Nat} :
    loadField base field s = .ok (value, s') ↔
      fieldOf s.words base field = value ∧
        { s with touched := s.touched ++ [fieldSlot base field] } = s' := by
  simp only [loadField, Storage.run_bind, Storage.run_load, Storage.run_pure, Prod.mk.injEq, fieldOf]
  constructor
  · rintro ⟨word, _, ⟨rfl, rfl⟩, hvalue, rfl⟩
    exact ⟨hvalue, rfl⟩
  · rintro ⟨hvalue, rfl⟩
    exact ⟨_, _, ⟨rfl, rfl⟩, hvalue, rfl⟩

variable {keccak} {escrowId : Bytes32} {totalAmount : Nat} {s s' : Storage.State Bytes32}
  {payment : Payment}

/-- A run that succeeds passes every check of the source, touches the slots above and writes
`spent`. -/
theorem run_settleBatchSlots
    (h : settleBatchSlots keccak escrowId totalAmount s = .ok (payment, s')) :
    let field := fieldOf s.words (escrowBase keccak escrowId)
    let fee := totalAmount * s.words feePercentSlot / 10000
    (field .active ≠ 0 ∧ field .disputed = 0 ∧ field .spent + totalAmount < 2 ^ 256 ∧
      field .spent + totalAmount ≤ field .budgetLimit ∧ field .spent + totalAmount ≤ field .deposit ∧
      totalAmount * s.words feePercentSlot < 2 ^ 256 ∧ fee ≤ totalAmount) ∧
    payment.value = totalAmount - fee ∧
    payment.callee = fieldOf s'.words (escrowBase keccak escrowId) .agentB ∧
    s'.words = Function.update s.words (fieldSlot (escrowBase keccak escrowId) .spent)
      (field .spent + totalAmount) ∧
    s'.touched = s.touched ++ settleBatchTouches (escrowBase keccak escrowId) := by
  simp only [settleBatchSlots, Storage.run_bind, run_loadField, Storage.run_load,
    Storage.run_compute, Storage.run_store, Storage.run_pure, require_eq_ok, checkedAdd_eq_ok,
    checkedMul_eq_ok, checkedSub_eq_ok] at h
  -- the checks of the session
  rcases h with ⟨_, _, ⟨rfl, rfl⟩, _, _, ⟨hactive, rfl⟩, _, _, ⟨rfl, rfl⟩, _, _, ⟨hdisputed, rfl⟩, h⟩
  -- the two limits
  rcases h with ⟨_, _, ⟨rfl, rfl⟩, _, _, ⟨⟨hrange, rfl⟩, rfl⟩, _, _, ⟨rfl, rfl⟩, _, _,
    ⟨hbudget, rfl⟩, h⟩
  rcases h with ⟨_, _, ⟨rfl, rfl⟩, _, _, ⟨⟨_, rfl⟩, rfl⟩, _, _, ⟨rfl, rfl⟩, _, _, ⟨hdeposit, rfl⟩, h⟩
  -- the fee, and what is written
  rcases h with ⟨_, _, ⟨rfl, rfl⟩, _, _, ⟨⟨hmul, rfl⟩, rfl⟩, _, _, ⟨⟨hfee, rfl⟩, rfl⟩, h⟩
  rcases h with ⟨_, _, ⟨rfl, rfl⟩, _, _, ⟨⟨_, rfl⟩, rfl⟩, _, _, rfl, _, _, ⟨rfl, rfl⟩, hresult⟩
  cases hresult
  refine ⟨⟨hactive, hdisputed, hrange, hbudget, hdeposit, hmul, hfee⟩, rfl, rfl, rfl, ?_⟩
  simp [settleBatchTouches]

/-- The session that lies at a slot. -/
def sessionOf (words : Bytes32 → Nat) (base : Bytes32) : EscrowSession where
  agentA := Fin.ofNat (2 ^ 160) (fieldOf words base .agentA)
  agentB := Fin.ofNat (2 ^ 160) (fieldOf words base .agentB)
  deposit := fieldOf words base .deposit
  budgetLimit := fieldOf words base .budgetLimit
  spent := fieldOf words base .spent
  verificationRequired := fieldOf words base .verificationRequired ≠ 0
  ttl := fieldOf words base .ttl
  createdAt := fieldOf words base .createdAt
  active := fieldOf words base .active ≠ 0
  disputed := fieldOf words base .disputed ≠ 0

/-- The slots hold the session and the fee of a world. -/
structure Stored (keccak : Keccak) (escrowId : Bytes32) (words : Bytes32 → Nat) (w : World) : Prop where
  session : w.escrows escrowId = sessionOf words (escrowBase keccak escrowId)
  feePercent : w.feePercent = words feePercentSlot

theorem val_slotAt (base : Bytes32) (i : Nat) : (slotAt base i).val = (base.val + i) % 2 ^ 256 := by
  simp [slotAt, Fin.val_add]

theorem slotAt_ne {base : Bytes32} {i j : Nat} (hi : i < 16) (hj : j < 16) (hne : i ≠ j) :
    slotAt base i ≠ slotAt base j := by
  intro h
  have hvalue := congrArg Fin.val h
  rw [val_slotAt, val_slotAt] at hvalue
  omega

theorem place_slot_lt (field : Field) : field.place.slot < 16 := by
  cases field <;> decide

/-- A field other than `spent` is not changed by writing the slot of `spent`. -/
theorem fieldOf_update {words : Bytes32 → Nat} {base : Bytes32} {word : Nat} {field : Field}
    (h : field ≠ .spent) :
    fieldOf (Function.update words (fieldSlot base .spent) word) base field =
      fieldOf words base field := by
  have hslot : field.place.slot ≠ Field.spent.place.slot := by
    cases field <;> first | exact absurd rfl h | decide
  have hne : fieldSlot base field ≠ fieldSlot base .spent :=
    slotAt_ne (place_slot_lt _) (place_slot_lt _) hslot
  rw [fieldOf, Function.update_of_ne hne, fieldOf]

theorem fieldOf_update_spent {words : Bytes32 → Nat} {base : Bytes32} {word : Nat}
    (h : word < 2 ^ 256) :
    fieldOf (Function.update words (fieldSlot base .spent) word) base .spent = word := by
  have hplace : Field.spent.place = ⟨4, 0, 32⟩ := by decide
  unfold fieldOf
  rw [Function.update_self, hplace]
  simp only [Place.read]
  omega

theorem sessionOf_update {words : Bytes32 → Nat} {base : Bytes32} {word : Nat} (h : word < 2 ^ 256) :
    sessionOf (Function.update words (fieldSlot base .spent) word) base =
      { sessionOf words base with spent := word } := by
  simp only [sessionOf, fieldOf_update_spent h]
  simp [fieldOf_update]

theorem fieldOf_agentB_lt (words : Bytes32 → Nat) (base : Bytes32) :
    fieldOf words base .agentB < 2 ^ 160 := by
  have hplace : Field.agentB.place = ⟨1, 0, 20⟩ := by decide
  rw [fieldOf, hplace]
  exact Nat.mod_lt _ (by decide)

/-- The slots and the world take the same step: the same payment to the same account, and the same
storage afterwards. -/
theorem settleBatchSlots_settles {w : World} (hstored : Stored keccak escrowId s.words w)
    (hfee : feePercentSlot ≠ fieldSlot (escrowBase keccak escrowId) .spent)
    (h : settleBatchSlots keccak escrowId totalAmount s = .ok (payment, s')) (receiptsHash : Bytes32) :
    ∃ w' fee, settleBatch escrowId receiptsHash totalAmount w =
        .ok (.transfer w' (w.escrows escrowId).agentB payment.value
          (.paid escrowId (w.escrows escrowId).agentB payment.value fee)
          (.settleBatch escrowId receiptsHash totalAmount)) ∧
      payment.callee = (w.escrows escrowId).agentB.val ∧ Stored keccak escrowId s'.words w' := by
  rcases run_settleBatchSlots h with
    ⟨⟨hactive, hdisputed, hrange, hbudget, hdeposit, hmul, hpayout⟩, hvalue, hcallee, hwords, _⟩
  rw [hwords, fieldOf_update (by decide)] at hcallee
  have hsession := hstored.session
  refine ⟨w.setEscrow escrowId
    { w.escrows escrowId with spent := (w.escrows escrowId).spent + totalAmount },
    totalAmount * w.feePercent / 10000, ?_, ?_, ?_, ?_⟩
  · simp only [settleBatch, payAgentB, bind_eq_ok, require_eq_ok, checkedAdd_eq_ok, checkedMul_eq_ok,
      checkedSub_eq_ok, pure_eq_ok, exists_and_left, exists_const]
    rw [hsession, hstored.feePercent, hvalue]
    exact ⟨decide_eq_true hactive, by simpa [sessionOf] using hdisputed, _, ⟨hrange, rfl⟩, hbudget, _,
      ⟨hrange, rfl⟩, hdeposit, _, ⟨hmul, rfl⟩, _, ⟨hpayout, rfl⟩, _, ⟨hrange, rfl⟩, rfl⟩
  · rw [hcallee, hsession]
    exact (Nat.mod_eq_of_lt (fieldOf_agentB_lt _ _)).symm
  · rw [hwords, sessionOf_update hrange, ← hsession]
    simp only [World.setEscrow, Function.update_self]
    rw [hsession]
    rfl
  · rw [hwords, Function.update_of_ne hfee]
    exact hstored.feePercent

/-- Where `settleBatch` gets to its value call, so do the slots. -/
theorem settleBatchSlots_complete {w : World} (hstored : Stored keccak escrowId s.words w)
    {receiptsHash : Bytes32} {next : Next}
    (h : settleBatch escrowId receiptsHash totalAmount w = .ok next) :
    ∃ payment s', settleBatchSlots keccak escrowId totalAmount s = .ok (payment, s') := by
  simp only [settleBatch, payAgentB, bind_eq_ok, require_eq_ok, checkedAdd_eq_ok, checkedMul_eq_ok,
    checkedSub_eq_ok, pure_eq_ok, exists_and_left, exists_const] at h
  rw [hstored.session, hstored.feePercent] at h
  rcases h with ⟨hactive, hdisputed, _, ⟨hrange, rfl⟩, hbudget, _, ⟨_, rfl⟩, hdeposit, _,
    ⟨hmul, rfl⟩, _, ⟨hpayout, _⟩, _⟩
  simp only [settleBatchSlots, Storage.run_bind, run_loadField, Storage.run_load,
    Storage.run_compute, Storage.run_store, Storage.run_pure, require_eq_ok, checkedAdd_eq_ok,
    checkedMul_eq_ok, checkedSub_eq_ok]
  -- one row for each statement of the function
  refine ⟨_, _,
    _, _, ⟨rfl, rfl⟩, (), _, ⟨of_decide_eq_true hactive, rfl⟩,
    _, _, ⟨rfl, rfl⟩, (), _, ⟨by simpa [sessionOf] using hdisputed, rfl⟩,
    _, _, ⟨rfl, rfl⟩, _, _, ⟨⟨hrange, rfl⟩, rfl⟩, _, _, ⟨rfl, rfl⟩, (), _, ⟨hbudget, rfl⟩,
    _, _, ⟨rfl, rfl⟩, _, _, ⟨⟨hrange, rfl⟩, rfl⟩, _, _, ⟨rfl, rfl⟩, (), _, ⟨hdeposit, rfl⟩,
    _, _, ⟨rfl, rfl⟩, _, _, ⟨⟨hmul, rfl⟩, rfl⟩,
    _, _, ⟨⟨hpayout, rfl⟩, rfl⟩,
    _, _, ⟨rfl, rfl⟩, _, _, ⟨⟨hrange, rfl⟩, rfl⟩,
    (), _, rfl,
    _, _, ⟨rfl, rfl⟩, rfl⟩

end Hub

end Contracts
end PaymentRail
