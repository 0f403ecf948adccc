import PaymentRail.Settlement.SettlementService

/-!
# Transactions — which transactions of a settlement may pay

A transaction is *live* if it was mined or still may be.  The predicates below relate the live
transactions of one settlement to the hash its row knows; all of them survive when the chain moves
on (`Evolved`).
-/

namespace PaymentRail
namespace Settlement

open Machine Strings Money Fees Collections

/-! ## Transactions of one settlement -/

/-- The transaction was mined, or still may be. -/
def Fate.live : Fate → Bool
  | .pending => true
  | .mined _ => true
  | .reverted => false
  | .dropped => false

def Fate.isMined : Fate → Bool
  | .mined _ => true
  | _ => false

theorem Fate.canBecome_self (fate : Fate) : fate.canBecome fate = true := by
  cases fate with
  | pending => rfl
  | mined depth => simp [canBecome]
  | reverted => rfl
  | dropped => rfl

theorem Fate.live_of_canBecome {fate fate' : Fate} (h : fate.canBecome fate' = true)
    (hlive : fate'.live = true) : fate.live = true := by
  cases fate with
  | pending => rfl
  | mined depth => rfl
  | reverted =>
      cases fate' with
      | pending => simp [canBecome] at h
      | mined depth => simp [canBecome] at h
      | reverted => exact hlive
      | dropped => exact hlive
  | dropped =>
      cases fate' with
      | pending => simp [canBecome] at h
      | mined depth => simp [canBecome] at h
      | reverted => exact hlive
      | dropped => exact hlive

theorem Fate.isMined_of_canBecome {fate fate' : Fate} (h : fate.canBecome fate' = true)
    (hmined : fate.isMined = true) : fate'.isMined = true := by
  cases fate with
  | mined depth =>
      cases fate' with
      | mined depth' => rfl
      | pending => simp [canBecome] at h
      | reverted => simp [canBecome] at h
      | dropped => simp [canBecome] at h
  | pending => simp [isMined] at hmined
  | reverted => simp [isMined] at hmined
  | dropped => simp [isMined] at hmined

theorem Fate.live_of_isMined {fate : Fate} (h : fate.isMined = true) : fate.live = true := by
  cases fate with
  | mined depth => rfl
  | pending => rfl
  | reverted => simp [isMined] at h
  | dropped => simp [isMined] at h

section Transactions

variable {txs txs' : List Transaction} {id : SettlementId} {hash : Option TxHash}

/-- Every transaction of the settlement that may pay is the one with the known hash. -/
def Owns (txs : List Transaction) (id : SettlementId) (hash : Option TxHash) : Prop :=
  ∀ tx ∈ txs, tx.settlementId = id → tx.fate.live = true → hash = some tx.hash

/-- The known hash is that of a transaction of the settlement. -/
def Known (txs : List Transaction) (id : SettlementId) (hash : Option TxHash) : Prop :=
  ∀ h, hash = some h → ∃ tx ∈ txs, tx.hash = h ∧ tx.settlementId = id

/-- All transactions of the settlement have failed for good. -/
def NoneLive (txs : List Transaction) (id : SettlementId) : Prop :=
  ∀ tx ∈ txs, tx.settlementId = id → tx.fate.live = false

/-- The transaction with the known hash was mined. -/
def Paid (txs : List Transaction) (id : SettlementId) (hash : Option TxHash) : Prop :=
  ∃ tx ∈ txs, tx.settlementId = id ∧ hash = some tx.hash ∧ tx.fate.isMined = true

/-- The transactions of one settlement have only moved on. -/
structure Evolved (id : SettlementId) (txs txs' : List Transaction) : Prop where
  back : ∀ tx' ∈ txs', tx'.settlementId = id →
    ∃ tx ∈ txs, tx.settlementId = id ∧ tx.hash = tx'.hash ∧ tx.fate.canBecome tx'.fate = true
  forth : ∀ tx ∈ txs, tx.settlementId = id →
    ∃ tx' ∈ txs', tx'.settlementId = id ∧ tx'.hash = tx.hash ∧ tx.fate.canBecome tx'.fate = true

theorem Evolved.refl (id : SettlementId) (txs : List Transaction) : Evolved id txs txs where
  back := fun tx htx hid => ⟨tx, htx, hid, rfl, tx.fate.canBecome_self⟩
  forth := fun tx htx hid => ⟨tx, htx, hid, rfl, tx.fate.canBecome_self⟩

theorem Owns.mono (h : Owns txs id hash) (hev : Evolved id txs txs') : Owns txs' id hash := by
  intro tx' htx' hid hlive
  rcases hev.back tx' htx' hid with ⟨tx, htx, htxid, hhash, hbecome⟩
  rw [← hhash]
  exact h tx htx htxid (Fate.live_of_canBecome hbecome hlive)

theorem Known.mono (h : Known txs id hash) (hev : Evolved id txs txs') : Known txs' id hash := by
  intro k hk
  rcases h k hk with ⟨tx, htx, hhash, hid⟩
  rcases hev.forth tx htx hid with ⟨tx', htx', hid', hhash', _⟩
  exact ⟨tx', htx', hhash'.trans hhash, hid'⟩

theorem NoneLive.mono (h : NoneLive txs id) (hev : Evolved id txs txs') : NoneLive txs' id := by
  intro tx' htx' hid
  rcases hev.back tx' htx' hid with ⟨tx, htx, htxid, _, hbecome⟩
  by_contra hlive
  have hold := Fate.live_of_canBecome hbecome (by simpa using hlive)
  simp [h tx htx htxid] at hold

theorem Paid.mono (h : Paid txs id hash) (hev : Evolved id txs txs') : Paid txs' id hash := by
  rcases h with ⟨tx, htx, hid, hhash, hmined⟩
  rcases hev.forth tx htx hid with ⟨tx', htx', hid', hhash', hbecome⟩
  exact ⟨tx', htx', hid', by rw [hhash', hhash], Fate.isMined_of_canBecome hbecome hmined⟩

/-! ### What the provider says about the known hash -/

theorem fateOf_of_mem (hkeyed : Table.Keyed Transaction.hash txs) {tx : Transaction} (h : tx ∈ txs) :
    fateOf txs (some tx.hash) = tx.fate := by
  simp [fateOf, Table.lookup_of_mem hkeyed h]

/-- A mined transaction under the known hash is the settlement's own. -/
theorem paid_of_fateOf (hkeyed : Table.Keyed Transaction.hash txs) (hknown : Known txs id hash)
    {depth : Nat} (h : fateOf txs hash = .mined depth) : Paid txs id hash := by
  cases hash with
  | none => simp [fateOf] at h
  | some k =>
      rcases hknown k rfl with ⟨tx, htx, rfl, hid⟩
      rw [fateOf_of_mem hkeyed htx] at h
      exact ⟨tx, htx, hid, rfl, by simp [h, Fate.isMined]⟩

/-- If the known transaction has failed, none of the settlement's transactions is live. -/
theorem noneLive_of_fateOf (hkeyed : Table.Keyed Transaction.hash txs) (howns : Owns txs id hash)
    (h : (fateOf txs hash).live = false) : NoneLive txs id := by
  intro tx htx hid
  by_contra hlive
  -- a live one would be the known one
  have hlive' : tx.fate.live = true := by simpa using hlive
  have hhash := howns tx htx hid hlive'
  rw [hhash, fateOf_of_mem hkeyed htx] at h
  simp [h] at hlive'

/-! ### Broadcasting and evolving -/

theorem evolved_broadcast {tx : Transaction} (hfresh : Table.lookup Transaction.hash txs tx.hash = none)
    (hne : tx.settlementId ≠ id) : Evolved id txs (Table.put Transaction.hash txs tx) where
  back := by
    intro tx' htx' hid
    rcases Table.mem_put htx' with rfl | ⟨hmem, _⟩
    · exact absurd hid hne
    · exact ⟨tx', hmem, hid, rfl, tx'.fate.canBecome_self⟩
  forth := by
    intro old hold hid
    have hkept : old ∈ Table.put Transaction.hash txs tx :=
      List.mem_cons_of_mem _ (Table.mem_drop.2 ⟨hold, Table.lookup_eq_none.1 hfresh old hold⟩)
    exact ⟨old, hkept, hid, rfl, old.fate.canBecome_self⟩

theorem evolved_evolve (hkeyed : Table.Keyed Transaction.hash txs) {tx : Transaction} {fate : Fate}
    (hmem : tx ∈ txs) (hbecome : tx.fate.canBecome fate = true) :
    Evolved id txs (Table.put Transaction.hash txs { tx with fate }) where
  back := by
    intro tx' htx' hid
    rcases Table.mem_put htx' with rfl | ⟨hold, _⟩
    · exact ⟨tx, hmem, hid, rfl, hbecome⟩
    · exact ⟨tx', hold, hid, rfl, tx'.fate.canBecome_self⟩
  forth := by
    intro old hold hid
    by_cases hsame : old.hash = tx.hash
    · -- a hash occurs once, so this is the transaction that moves on
      have hEq : old = tx := hkeyed.eq_of_key hold hmem hsame
      rw [hEq] at hid ⊢
      exact ⟨{ tx with fate }, List.mem_cons_self, hid, rfl, hbecome⟩
    · exact ⟨old, List.mem_cons_of_mem _ (Table.mem_drop.2 ⟨hold, hsame⟩), hid, rfl,
        old.fate.canBecome_self⟩

end Transactions

end Settlement
end PaymentRail
