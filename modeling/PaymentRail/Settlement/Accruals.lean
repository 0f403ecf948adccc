import PaymentRail.Settlement.Stranded

/-!
# Accruals — what stands behind an entry of the fee ledger

An accrual belongs to one settlement, its amount is the fee quoted for the total of that settlement,
and a transaction over that total was mined before it was written.  This holds in every run of the
settlement machine: any interleaving of first attempts, ticks and replays, and any failing save or
ledger write.

Totals and fees are decimal texts, some of them rounded by a column of the database; what they mean is
`weiOf`.
-/

namespace PaymentRail
namespace Settlement

open Machine Strings Money Fees Collections

/-! ## Amounts -/

/-- The wei of a decimal text. -/
def weiOf (text : Text) : Int :=
  match amountFrom text with
  | .ok a => a.wei
  | .error _ => 0

theorem weiOf_of_ok {text : Text} {a : Amount} (h : amountFrom text = .ok a) : weiOf text = a.wei := by
  rw [weiOf, h]

/-- A column gives back the amount it was given. -/
theorem amountFrom_decimalColumn {text : Text} {a : Amount} (h : amountFrom text = .ok a) :
    amountFrom (decimalColumn text) = .ok a := by
  rw [decimalColumn, h]
  exact Amount.amountFrom_toFixed a

theorem weiOf_decimalColumn (text : Text) : weiOf (decimalColumn text) = weiOf text := by
  cases h : amountFrom text with
  | ok a => rw [weiOf_of_ok (amountFrom_decimalColumn h), weiOf_of_ok h]
  | error message => rw [decimalColumn, h]

/-- The fee of the row is the one the policy takes of its total. -/
structure Priced (policy : FeePolicy) (row : SettlementRow) : Prop where
  total : ∃ a, amountFrom row.totalAmount = .ok a
  fee : ∃ breakdown text, computeFee (weiOf row.totalAmount) policy = .ok breakdown ∧
    row.feeAmount = some text ∧ amountFrom text = .ok ⟨breakdown.fee⟩

theorem Priced.stored {policy : FeePolicy} {row : SettlementRow} (h : Priced policy row) :
    Priced policy row.stored := by
  rcases h with ⟨⟨a, ha⟩, breakdown, text, hbreakdown, hfee, htext⟩
  refine ⟨⟨a, amountFrom_decimalColumn ha⟩, breakdown, decimalColumn text, ?_, ?_, ?_⟩
  · show computeFee (weiOf (decimalColumn row.totalAmount)) policy = .ok breakdown
    rw [weiOf_decimalColumn]
    exact hbreakdown
  · show row.feeAmount.map decimalColumn = some (decimalColumn text)
    rw [hfee]
    rfl
  · exact amountFrom_decimalColumn htext

/-- Only the total and the fee matter. -/
theorem Priced.congr {policy : FeePolicy} {row row' : SettlementRow} (h : Priced policy row)
    (htotal : row'.totalAmount = row.totalAmount) (hfee : row'.feeAmount = row.feeAmount) :
    Priced policy row' := by
  refine ⟨?_, ?_⟩
  · rw [htotal]
    exact h.total
  · rw [htotal, hfee]
    exact h.fee

theorem priced_newSettlement {cfg : Config} {id : SettlementId} {input : SettleBatchInput}
    {entity : SettlementRow} (h : newSettlement cfg id input = .ok entity) : Priced cfg.policy entity := by
  simp only [newSettlement, quote, bind_eq_ok, pure_eq_ok] at h
  rcases h with ⟨quoted, ⟨_, _, a, ha, breakdown, hbreakdown, rfl⟩, rfl⟩
  refine ⟨⟨a, ha⟩, breakdown, _, ?_, rfl, Amount.amountFrom_toString _⟩
  show computeFee (weiOf input.totalAmount) cfg.policy = .ok breakdown
  rw [weiOf_of_ok ha]
  exact hbreakdown

/-! ## A growing store -/

theorem Fate.canBecome_trans {fate fate' fate'' : Fate} (h : fate.canBecome fate' = true)
    (h' : fate'.canBecome fate'' = true) : fate.canBecome fate'' = true := by
  cases fate with
  | pending => rfl
  | mined depth =>
      cases fate' with
      | mined depth' =>
          cases fate'' with
          | mined depth'' =>
              have hle : depth ≤ depth' := by simpa [canBecome] using h
              have hle' : depth' ≤ depth'' := by simpa [canBecome] using h'
              simpa [canBecome] using hle.trans hle'
          | _ => simp [canBecome] at h'
      | _ => simp [canBecome] at h
  | reverted =>
      cases fate' with
      | reverted => exact h'
      | _ => simp [canBecome] at h
  | dropped =>
      cases fate' with
      | dropped => exact h'
      | _ => simp [canBecome] at h

/-- The stored total of a settlement. -/
def Store.charges (store : Store) (id : SettlementId) (wei : Int) : Prop :=
  ∃ row, store.find id = some row ∧ weiOf row.totalAmount = wei

theorem Store.charges.unique {store : Store} {id : SettlementId} {wei wei' : Int}
    (h : store.charges id wei) (h' : store.charges id wei') : wei = wei' := by
  rcases h with ⟨row, hrow, rfl⟩
  rcases h' with ⟨row', hrow', rfl⟩
  rw [hrow] at hrow'
  cases hrow'
  rfl

/-- Totals stay, and transactions only move on. -/
structure Grows (store store' : Store) : Prop where
  charges : ∀ id wei, store.charges id wei → store'.charges id wei
  forth : ∀ tx ∈ store.transactions, ∃ tx' ∈ store'.transactions, tx'.hash = tx.hash ∧
    tx'.settlementId = tx.settlementId ∧ tx.fate.canBecome tx'.fate = true

theorem Grows.refl (store : Store) : Grows store store where
  charges := fun _ _ h => h
  forth := fun tx htx => ⟨tx, htx, rfl, rfl, tx.fate.canBecome_self⟩

theorem Grows.trans {store store' store'' : Store} (h : Grows store store') (h' : Grows store' store'') :
    Grows store store'' where
  charges := fun id wei hcharges => h'.charges id wei (h.charges id wei hcharges)
  forth := by
    intro tx htx
    rcases h.forth tx htx with ⟨tx', htx', hhash, hid, hbecome⟩
    rcases h'.forth tx' htx' with ⟨tx'', htx'', hhash', hid', hbecome'⟩
    exact ⟨tx'', htx'', hhash'.trans hhash, hid'.trans hid, Fate.canBecome_trans hbecome hbecome'⟩

theorem Grows.known {store store' : Store} (h : Grows store store') {id : SettlementId}
    {hash : Option TxHash} (hknown : Known store.transactions id hash) :
    Known store'.transactions id hash := by
  intro k hk
  rcases hknown k hk with ⟨tx, htx, hhash, hid⟩
  rcases h.forth tx htx with ⟨tx', htx', hhash', hid', _⟩
  exact ⟨tx', htx', hhash'.trans hhash, hid'.trans hid⟩

theorem Grows.paid {store store' : Store} (h : Grows store store') {id : SettlementId}
    {hash : Option TxHash} (hpaid : Paid store.transactions id hash) :
    Paid store'.transactions id hash := by
  rcases hpaid with ⟨tx, htx, hid, hhash, hmined⟩
  rcases h.forth tx htx with ⟨tx', htx', hhash', hid', hbecome⟩
  exact ⟨tx', htx', hid'.trans hid, by rw [hhash, hhash'], Fate.isMined_of_canBecome hbecome hmined⟩

/-- The same rows and the same transactions. -/
theorem Grows.of_eq {store store' : Store} (hrows : store'.settlements = store.settlements)
    (htxs : store'.transactions = store.transactions) : Grows store store' where
  charges := by
    rintro id wei ⟨row, hrow, hwei⟩
    exact ⟨row, by rw [find_congr hrows]; exact hrow, hwei⟩
  forth := by
    intro tx htx
    exact ⟨tx, by rw [htxs]; exact htx, rfl, rfl, tx.fate.canBecome_self⟩

/-- A save with the total that is stored already, or of a new row. -/
theorem Grows.save {store : Store} {entity : SettlementRow}
    (h : store.find entity.id = none ∨ store.charges entity.id (weiOf entity.totalAmount)) :
    Grows store (store.save entity) where
  charges := by
    intro id wei hcharges
    by_cases hid : id = entity.id
    · subst hid
      refine ⟨entity.stored, find_save_self store entity, ?_⟩
      have hsame : weiOf entity.stored.totalAmount = weiOf entity.totalAmount :=
        weiOf_decimalColumn entity.totalAmount
      rw [hsame]
      rcases h with hfresh | hstored
      · rcases hcharges with ⟨row, hrow, _⟩
        rw [hfresh] at hrow
        cases hrow
      · exact hstored.unique hcharges
    · rcases hcharges with ⟨row, hrow, hwei⟩
      exact ⟨row, by rw [find_save_of_ne hid]; exact hrow, hwei⟩
  forth := fun tx htx => ⟨tx, htx, rfl, rfl, tx.fate.canBecome_self⟩

theorem Grows.broadcast {store : Store} {tx : Transaction}
    (hfresh : Table.lookup Transaction.hash store.transactions tx.hash = none) :
    Grows store (store.broadcast tx) where
  charges := fun _ _ h => h
  forth := by
    intro old hold
    have hkept : old ∈ (store.broadcast tx).transactions :=
      List.mem_cons_of_mem _ (Table.mem_drop.2 ⟨hold, Table.lookup_eq_none.1 hfresh old hold⟩)
    exact ⟨old, hkept, rfl, rfl, old.fate.canBecome_self⟩

theorem Grows.evolve {store : Store} (hkeyed : Table.Keyed Transaction.hash store.transactions)
    {tx : Transaction} {fate : Fate} (hmem : tx ∈ store.transactions)
    (hbecome : tx.fate.canBecome fate = true) : Grows store (store.broadcast { tx with fate }) where
  charges := fun _ _ h => h
  forth := by
    intro old hold
    rcases (evolved_evolve hkeyed hmem hbecome).forth old hold rfl with ⟨tx', htx', hid, hhash, hold'⟩
    exact ⟨tx', htx', hhash, hid, hold'⟩

/-! ## The invariant -/

/-- A copy of a settlement, stored or in memory, with the total and the fee it was created with. -/
structure Bill (policy : FeePolicy) (store : Store) (row : SettlementRow) : Prop where
  priced : Priced policy row
  charges : store.charges row.id (weiOf row.totalAmount)
  known : Known store.transactions row.id row.txHash

def StageBilled (store : Store) (entity : SettlementRow) : Stage → Prop
  | .sendTransaction amountWei => amountWei = weiOf entity.totalAmount
  | .accrueFee => Paid store.transactions entity.id entity.txHash
  | _ => True

def Process.Billed (policy : FeePolicy) (store : Store) : Process → Prop
  | .insert entity => Priced policy entity ∧ entity.txHash = none
  | .attempt caller _ entity stage =>
      Bill policy store entity ∧ StageBilled store entity stage ∧
        ∀ row ∈ caller.rest, Bill policy store row
  | _ => True

/-- What an accrual says is true: the fee of the total that was paid. -/
structure Accrued (policy : FeePolicy) (store : Store) (entry : SettlementId × Text) : Prop where
  fee : ∃ wei breakdown, store.charges entry.1 wei ∧ computeFee wei policy = .ok breakdown ∧
    amountFrom entry.2 = .ok ⟨breakdown.fee⟩
  paid : ∃ hash, Paid store.transactions entry.1 hash

structure BilledStore (policy : FeePolicy) (store : Store) : Prop where
  keyed : Table.Keyed SettlementRow.id store.settlements
  hashes : Table.Keyed Transaction.hash store.transactions
  rows : ∀ id row, store.find id = some row → Bill policy store row
  sent : ∀ tx ∈ store.transactions, store.charges tx.settlementId tx.amountWei
  accruals : ∀ entry ∈ store.accruals, Accrued policy store entry
  once : (store.accruals.map Prod.fst).Nodup

structure Billed (policy : FeePolicy) (s : State) : Prop where
  store : BilledStore policy s.store
  processes : ∀ pid p, s.process pid = some p → p.Billed policy s.store

section Monotone

variable {policy : FeePolicy} {store store' : Store} (h : Grows store store')
include h

theorem Bill.mono {row : SettlementRow} (hbill : Bill policy store row) : Bill policy store' row :=
  ⟨hbill.priced, h.charges _ _ hbill.charges, h.known hbill.known⟩

theorem StageBilled.mono {entity : SettlementRow} {stage : Stage} (hstage : StageBilled store entity stage) :
    StageBilled store' entity stage := by
  cases stage with
  | accrueFee => exact h.paid hstage
  | _ => exact hstage

theorem Process.Billed.mono {p : Process} (hp : p.Billed policy store) : p.Billed policy store' := by
  cases p with
  | insert entity => exact hp
  | attempt caller now entity stage =>
      exact ⟨hp.1.mono h, hp.2.1.mono h, fun row hrow => (hp.2.2 row hrow).mono h⟩
  | _ => trivial

theorem Accrued.mono {entry : SettlementId × Text} (hentry : Accrued policy store entry) :
    Accrued policy store' entry := by
  rcases hentry with ⟨⟨wei, breakdown, hcharges, hbreakdown, hfee⟩, hash, hpaid⟩
  exact ⟨⟨wei, breakdown, h.charges _ _ hcharges, hbreakdown, hfee⟩, hash, h.paid hpaid⟩

end Monotone

section Attempt

variable {cfg : Config} {begun : Time} {entity : SettlementRow} {stage : Stage} {reply : Reply}
  {store store' : Store} {flow : Flow}

theorem Bill.stored {policy : FeePolicy} (h : Bill policy store entity)
    (hcharges : store'.charges entity.id (weiOf entity.totalAmount))
    (hknown : Known store'.transactions entity.id entity.txHash) :
    Bill policy store' entity.stored := by
  refine ⟨h.priced.stored, ?_, hknown⟩
  -- the column keeps all 18 places
  have hsame : weiOf entity.stored.totalAmount = weiOf entity.totalAmount :=
    weiOf_decimalColumn entity.totalAmount
  rw [hsame]
  exact hcharges

theorem attempts_grows (hbill : Bill cfg.policy store entity)
    (h : Attempts cfg begun entity store stage reply store' flow) : Grows store store' := by
  have hsave : Grows store (store.save entity) := .save (Or.inr hbill.charges)
  cases h with
  | pendingSaved => exact hsave
  | hashSaved => exact hsave
  | broadcast hfresh => exact .broadcast hfresh
  | accrued =>
      rcases accrue_fields store entity with ⟨hrows, htxs⟩
      exact .of_eq hrows htxs
  | outcomeSaved =>
      rcases emitOutcome_fields (store.save entity) entity with ⟨hrows, htxs⟩
      exact hsave.trans (.of_eq hrows htxs)
  | _ => exact .refl store

/-- A copy with another status or another counter is as good a bill. -/
theorem Bill.congr {policy : FeePolicy} {row : SettlementRow} (h : Bill policy store entity)
    (hid : row.id = entity.id) (htotal : row.totalAmount = entity.totalAmount)
    (hfee : row.feeAmount = entity.feeAmount) (hhash : row.txHash = entity.txHash) :
    Bill policy store row := by
  refine ⟨h.priced.congr htotal hfee, ?_, ?_⟩
  · rw [hid, htotal]
    exact h.charges
  · rw [hid, hhash]
    exact h.known

theorem attempts_billed {next : SettlementRow} {stage' : Stage}
    (hkeyed : Table.Keyed Transaction.hash store.transactions) (hbill : Bill cfg.policy store entity)
    (hstage : StageBilled store entity stage)
    (h : Attempts cfg begun entity store stage reply store' (.await next stage')) :
    Bill cfg.policy store' next ∧ StageBilled store' next stage' := by
  have hgrows := attempts_grows hbill h
  have hmono := hbill.mono hgrows
  cases h with
  | deep hfate _ => exact ⟨hbill.congr rfl rfl rfl rfl, paid_of_fateOf hkeyed hbill.known hfate⟩
  | confirmed hfate _ => exact ⟨hbill.congr rfl rfl rfl rfl, paid_of_fateOf hkeyed hbill.known hfate⟩
  | gasAccepted _ hamount => exact ⟨hbill, (weiOf_of_ok hamount).symm⟩
  | @broadcast amountWei hash hfresh =>
      refine ⟨⟨hbill.priced.congr rfl rfl, hmono.charges, ?_⟩, trivial⟩
      -- the new hash is the one just broadcast
      intro k hk
      have hEq : hash = k := by simpa using hk
      subst hEq
      exact ⟨_, List.mem_cons_self, rfl, rfl⟩
  | shallow _ _ => exact ⟨hbill.congr rfl rfl rfl rfl, trivial⟩
  | inMempool _ => exact ⟨hbill.congr rfl rfl rfl rfl, trivial⟩
  | gasTooHigh _ => exact ⟨hbill.congr rfl rfl rfl rfl, trivial⟩
  | badAmount _ => exact ⟨hbill.congr rfl rfl rfl rfl, trivial⟩
  | caught _ _ => exact ⟨hbill.congr rfl rfl rfl rfl, trivial⟩
  | _ => exact ⟨hmono, trivial⟩

/-- A new transaction is over the total of its settlement. -/
theorem attempts_sent (hbill : Bill cfg.policy store entity) (hstage : StageBilled store entity stage)
    (hsent : ∀ tx ∈ store.transactions, store.charges tx.settlementId tx.amountWei)
    (h : Attempts cfg begun entity store stage reply store' flow) :
    ∀ tx ∈ store'.transactions, store'.charges tx.settlementId tx.amountWei := by
  have hgrows := attempts_grows hbill h
  have hold : store'.transactions = store.transactions →
      ∀ tx ∈ store'.transactions, store'.charges tx.settlementId tx.amountWei := by
    intro hsame tx htx
    rw [hsame] at htx
    exact hgrows.charges _ _ (hsent tx htx)
  cases h with
  | @broadcast amountWei hash hfresh =>
      intro tx htx
      rcases Table.mem_put htx with rfl | ⟨hmem, _⟩
      · -- the amount was read from the row before it was sent
        have hamount : amountWei = weiOf entity.totalAmount := hstage
        rw [hamount]
        exact hbill.charges
      · exact hgrows.charges _ _ (hsent tx hmem)
  | accrued => exact hold (accrue_fields store entity).2
  | outcomeSaved => exact hold (emitOutcome_fields (store.save entity) entity).2
  | _ => exact hold rfl

/-- A ledger write adds the fee of a settlement that was paid, or nothing. -/
theorem accruals_accrue (store : Store) (entity : SettlementRow) :
    (store.accrue entity).accruals = store.accruals ∨
      ∃ fee, entity.feeAmount = some fee ∧ (∀ entry ∈ store.accruals, entry.1 ≠ entity.id) ∧
        (store.accrue entity).accruals = (entity.id, fee) :: store.accruals := by
  cases hfee : entity.feeAmount with
  | none => exact Or.inl (by simp [Store.accrue, hfee])
  | some fee =>
      cases hamount : amountFrom fee with
      | error message => exact Or.inl (by simp [Store.accrue, hfee, hamount])
      | ok a =>
          by_cases hskip : a.wei = 0 ∨ store.accruals.any (fun entry => entry.1 = entity.id) = true
          · exact Or.inl (by simp only [Store.accrue, hfee, hamount, if_pos hskip])
          · refine Or.inr ⟨fee, rfl, ?_, by simp only [Store.accrue, hfee, hamount, if_neg hskip]⟩
            intro entry hentry hid
            exact hskip (Or.inr (List.any_eq_true.2 ⟨entry, hentry, by simpa using hid⟩))

theorem attempts_accruals (hbill : Bill cfg.policy store entity) (hstage : StageBilled store entity stage)
    (haccruals : ∀ entry ∈ store.accruals, Accrued cfg.policy store entry)
    (honce : (store.accruals.map Prod.fst).Nodup)
    (h : Attempts cfg begun entity store stage reply store' flow) :
    (∀ entry ∈ store'.accruals, Accrued cfg.policy store' entry) ∧
      (store'.accruals.map Prod.fst).Nodup := by
  have hgrows := attempts_grows hbill h
  have hold : store'.accruals = store.accruals →
      (∀ entry ∈ store'.accruals, Accrued cfg.policy store' entry) ∧
        (store'.accruals.map Prod.fst).Nodup := by
    intro hsame
    rw [hsame]
    exact ⟨fun entry hentry => (haccruals entry hentry).mono hgrows, honce⟩
  cases h with
  | accrued =>
      rcases accruals_accrue store entity with hsame | ⟨fee, hfee, hnew, hcons⟩
      · exact hold hsame
      · rw [hcons]
        refine ⟨?_, ?_⟩
        · intro entry hentry
          rcases List.mem_cons.1 hentry with rfl | hmem
          · -- the fee on the row is the one that was quoted for its total
            rcases hbill.priced.fee with ⟨breakdown, text, hbreakdown, htext, hamount⟩
            rw [hfee] at htext
            cases htext
            exact ⟨⟨_, breakdown, hgrows.charges _ _ hbill.charges, hbreakdown, hamount⟩, _,
              hgrows.paid hstage⟩
          · exact (haccruals entry hmem).mono hgrows
        · rw [List.map_cons, List.nodup_cons]
          refine ⟨?_, honce⟩
          -- the ledger is only written where it has no entry of the settlement
          intro hmem
          rcases List.mem_map.1 hmem with ⟨entry, hentry, hid⟩
          exact hnew entry hentry hid
  | outcomeSaved =>
      refine hold ?_
      unfold Store.emitOutcome
      split <;> rfl
  | _ => exact hold rfl

theorem attempts_hashes (hkeyed : Table.Keyed Transaction.hash store.transactions)
    (h : Attempts cfg begun entity store stage reply store' flow) :
    Table.Keyed Transaction.hash store'.transactions := by
  cases h with
  | broadcast _ => exact hkeyed.put
  | accrued =>
      rw [(accrue_fields store entity).2]
      exact hkeyed
  | outcomeSaved =>
      rw [(emitOutcome_fields (store.save entity) entity).2]
      exact hkeyed
  | _ => exact hkeyed

theorem attempts_billedStore (hstore : BilledStore cfg.policy store) (hbill : Bill cfg.policy store entity)
    (hstage : StageBilled store entity stage)
    (h : Attempts cfg begun entity store stage reply store' flow) : BilledStore cfg.policy store' := by
  have hgrows := attempts_grows hbill h
  have hmono := hbill.mono hgrows
  have haccruals := attempts_accruals hbill hstage hstore.accruals hstore.once h
  refine ⟨?_, attempts_hashes hstore.hashes h, ?_, attempts_sent hbill hstage hstore.sent h,
    haccruals.1, haccruals.2⟩
  · rcases attempts_settlements h with hsame | ⟨hsaved, _, _⟩
    · rw [hsame]
      exact hstore.keyed
    · rw [hsaved]
      exact hstore.keyed.put
  · intro id row hrow
    rcases attempts_settlements h with hsame | ⟨hsaved, _, _⟩
    · rw [find_congr hsame] at hrow
      exact (hstore.rows id row hrow).mono hgrows
    · rw [find_congr hsaved] at hrow
      by_cases hid : id = entity.id
      · subst hid
        rw [find_save_self] at hrow
        cases hrow
        exact hbill.stored hmono.charges hmono.known
      · rw [find_save_of_ne hid] at hrow
        exact (hstore.rows id row hrow).mono hgrows

end Attempt

section Steps

variable {cfg : Config} {s s' : State} {pid : Pid} {now : Time} {reply : Reply} {p p' : Process}

/-- The store after the insert of a new row. -/
theorem inserted_billedStore {policy : FeePolicy} {store : Store} {entity : SettlementRow}
    (hstore : BilledStore policy store) (hpriced : Priced policy entity) (hhash : entity.txHash = none)
    (hfresh : store.find entity.id = none) :
    BilledStore policy (store.save entity) ∧ Bill policy (store.save entity) entity := by
  have hgrows : Grows store (store.save entity) := .save (Or.inl hfresh)
  have hcharges : (store.save entity).charges entity.id (weiOf entity.totalAmount) :=
    ⟨entity.stored, find_save_self store entity, weiOf_decimalColumn entity.totalAmount⟩
  have hknown : Known store.transactions entity.id entity.txHash := by
    intro k hk
    rw [hhash] at hk
    cases hk
  refine ⟨⟨hstore.keyed.put, hstore.hashes, ?_, ?_, ?_, hstore.once⟩, hpriced, hcharges, hknown⟩
  · intro id row hrow
    by_cases hid : id = entity.id
    · subst hid
      rw [find_save_self] at hrow
      cases hrow
      refine ⟨hpriced.stored, ?_, hknown⟩
      have hsame : weiOf entity.stored.totalAmount = weiOf entity.totalAmount :=
        weiOf_decimalColumn entity.totalAmount
      rw [hsame]
      exact hcharges
    · rw [find_save_of_ne hid] at hrow
      exact (hstore.rows id row hrow).mono hgrows
  · exact fun tx htx => hgrows.charges _ _ (hstore.sent tx htx)
  · exact fun entry hentry => (hstore.accruals entry hentry).mono hgrows

theorem bill_startAttempt {policy : FeePolicy} {store : Store} {row : SettlementRow}
    (h : Bill policy store row) (caller : Caller) (now : Time)
    (hrest : ∀ r ∈ caller.rest, Bill policy store r) :
    (Process.attempt caller now (startAttempt row).1 (startAttempt row).2).Billed policy store := by
  cases hhash : row.txHash with
  | none =>
      simp only [startAttempt, hhash]
      exact ⟨⟨h.priced.congr rfl rfl, h.charges, by rw [← hhash]; exact h.known⟩, trivial, hrest⟩
  | some hash =>
      simp only [startAttempt, hhash]
      exact ⟨⟨h.priced.congr rfl rfl, h.charges, by rw [← hhash]; exact h.known⟩, trivial, hrest⟩

/-- A resumed process leaves a store that is in order, larger than before. -/
theorem resumes_billedStore (hbilled : Billed cfg.policy s) (hp : s.process pid = some p)
    (hresumes : Resumes cfg s pid now p reply s') :
    BilledStore cfg.policy s'.store ∧ Grows s.store s'.store := by
  have hprocess := hbilled.processes pid p hp
  cases hresumes with
  | inserted hfresh _ =>
      exact ⟨(inserted_billedStore hbilled.store hprocess.1 hprocess.2 hfresh).1, .save (Or.inl hfresh)⟩
  | insertedOnly hfresh _ =>
      exact ⟨(inserted_billedStore hbilled.store hprocess.1 hprocess.2 hfresh).1, .save (Or.inl hfresh)⟩
  | scanned =>
      rw [nextDue_store]
      exact ⟨hbilled.store, .refl _⟩
  | attempted hattempt =>
      have hattempts := attempts_of_attemptStep hattempt
      rw [proceed_store]
      exact ⟨attempts_billedStore hbilled.store hprocess.1 hprocess.2.1 hattempts,
        attempts_grows hprocess.1 hattempts⟩
  | _ => exact ⟨hbilled.store, .refl _⟩

theorem turns_billed {store' : Store} (hbilled : Billed cfg.policy s) (hp : s.process pid = some p)
    (hgrows : Grows s.store store') (hturns : Turns cfg s now p reply store' p') :
    p'.Billed cfg.policy store' := by
  have hprocess := hbilled.processes pid p hp
  cases hturns with
  | inserted hfresh =>
      exact bill_startAttempt (inserted_billedStore hbilled.store hprocess.1 hprocess.2 hfresh).2 _ _
        fun _ hr => absurd hr List.not_mem_nil
  | @replayed id row hrow _ _ _ =>
      have hbill : Bill cfg.policy s.store { row with attempts := 0 } :=
        (hbilled.store.rows id row hrow).congr rfl rfl rfl rfl
      exact bill_startAttempt hbill .replay now fun _ hr => absurd hr List.not_mem_nil
  | @scanned tick row rest hdue =>
      -- what the scan returns are rows of the store
      have hrows : ∀ r ∈ row :: rest, Bill cfg.policy s.store r := by
        intro r hr
        rw [← hdue] at hr
        exact hbilled.store.rows r.id r (Table.lookup_of_mem hbilled.store.keyed (mem_findDueRetries hr).1)
      exact bill_startAttempt (hrows row List.mem_cons_self) _ _
        (fun r hr => hrows r (List.mem_cons_of_mem _ hr))
  | awaits hattempts =>
      rcases attempts_billed hbilled.store.hashes hprocess.1 hprocess.2.1 hattempts with ⟨hbill, hstage⟩
      exact ⟨hbill, hstage, fun row hrow => (hprocess.2.2 row hrow).mono hgrows⟩
  | nextDue _ =>
      exact bill_startAttempt ((hprocess.2.2 _ List.mem_cons_self).mono hgrows) _ _
        (fun r hr => (hprocess.2.2 r (List.mem_cons_of_mem _ hr)).mono hgrows)

theorem resumes_billed (hbilled : Billed cfg.policy s) (hp : s.process pid = some p)
    (hresumes : Resumes cfg s pid now p reply s') : Billed cfg.policy s' := by
  rcases resumes_billedStore hbilled hp hresumes with ⟨hstore, hgrows⟩
  refine ⟨hstore, ?_⟩
  intro qid q hq
  by_cases hpid : qid = pid
  · subst hpid
    exact turns_billed hbilled hp hgrows (turns_of_resumes hresumes hq)
  · rw [resumes_others hresumes hpid] at hq
    exact (hbilled.processes qid q hq).mono hgrows

theorem Billed.spawn (hbilled : Billed cfg.policy s) (hp : p.Billed cfg.policy s.store) :
    Billed cfg.policy (s.spawn pid p) := by
  refine ⟨hbilled.store, ?_⟩
  intro qid q hq
  by_cases hpid : qid = pid
  · subst hpid
    rw [process_spawn_self] at hq
    cases hq
    exact hp
  · rw [process_spawn_of_ne s pid p hpid] at hq
    exact hbilled.processes qid q hq

theorem evolve_billed {tx : Transaction} {fate : Fate} (hbilled : Billed cfg.policy s)
    (hmem : tx ∈ s.store.transactions) (hbecome : tx.fate.canBecome fate = true) :
    Billed cfg.policy { s with store := s.store.broadcast { tx with fate } } := by
  have hgrows : Grows s.store (s.store.broadcast { tx with fate }) :=
    .evolve hbilled.store.hashes hmem hbecome
  refine ⟨⟨hbilled.store.keyed, hbilled.store.hashes.put, ?_, ?_, ?_, hbilled.store.once⟩, ?_⟩
  · exact fun id row hrow => (hbilled.store.rows id row hrow).mono hgrows
  · intro tx' htx'
    rcases Table.mem_put htx' with rfl | ⟨hold, _⟩
    · exact hbilled.store.sent tx hmem
    · exact hbilled.store.sent tx' hold
  · exact fun entry hentry => (hbilled.store.accruals entry hentry).mono hgrows
  · exact fun pid p hp => (hbilled.processes pid p hp).mono hgrows

theorem step_billed {a : Action} (hbilled : Billed cfg.policy s) (hstep : step cfg a s = some s') :
    Billed cfg.policy s' := by
  cases acts_of_step hstep with
  | settleBatch _ _ hentity =>
      exact hbilled.spawn ⟨priced_newSettlement hentity, (newSettlement_fields hentity).2⟩
  | @processDue pid now _ _ _ =>
      have hspawned : Billed cfg.policy (s.spawn pid (.findDueRetries now)) := hbilled.spawn trivial
      exact ⟨hspawned.store, hspawned.processes⟩
  | replay _ => exact hbilled.spawn trivial
  | resume hp hresumes => exact resumes_billed hbilled hp hresumes
  | evolve htx hbecome => exact evolve_billed hbilled (Table.mem_of_lookup htx) hbecome
  | setPaused => exact ⟨hbilled.store, hbilled.processes⟩

end Steps

theorem initial_billed (policy : FeePolicy) : Billed policy initial where
  store :=
    { keyed := List.nodup_nil
      hashes := List.nodup_nil
      rows := by
        intro id row hrow
        cases hrow
      sent := by
        intro tx htx
        cases htx
      accruals := by
        intro entry hentry
        cases hentry
      once := List.nodup_nil }
  processes := by
    intro pid p hp
    cases hp

end Settlement
end PaymentRail
