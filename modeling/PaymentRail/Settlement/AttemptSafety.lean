import PaymentRail.Settlement.Transactions
import PaymentRail.Settlement.Transitions

/-!
# AttemptSafety — what an attempt knows at each of its waits

`Busy` says what holds of an attempt that is under way, wait by wait; `attemptStep_sound` shows that
every answer leads to a state of which it holds again, or to a row that is at rest.  A new
transaction is only sent when no earlier one of the settlement is live.
-/

namespace PaymentRail
namespace Settlement

open Machine Strings Money Fees Collections

/-! ## Rows and entities -/

/-- A row nobody is working on. -/
structure RowSound (txs : List Transaction) (row : SettlementRow) : Prop where
  owns : Owns txs row.id row.txHash
  known : Known txs row.id row.txHash
  paid : row.status = .settled → Paid txs row.id row.txHash

theorem RowSound.mono {txs txs' : List Transaction} {row : SettlementRow} (h : RowSound txs row)
    (hev : Evolved row.id txs txs') : RowSound txs' row where
  owns := h.owns.mono hev
  known := h.known.mono hev
  paid := fun hsettled => (h.paid hsettled).mono hev

/-- The status under which a caller takes up a row, and under which the row stays stored until the
caller writes its outcome. -/
def Caller.expects : Caller → SettlementStatus → Bool
  | .settleBatch, status => status = .pending
  | .processDue _, status => status = .retrying
  | .replay, status => replayable status

/-- The waits after which the hash may still be saved with the status the row was read with. -/
def Stage.beforeOutcome : Stage → Bool
  | .savePending => false
  | .accrueFee => false
  | .saveOutcome => false
  | _ => true

/-- What an attempt knows at each wait. -/
def StageSound (txs : List Transaction) (entity : SettlementRow) : Stage → Prop
  | .confirmations => Paid txs entity.id entity.txHash
  | .savePending => entity.status ≠ .settled
  | .assertGasWithinCap => NoneLive txs entity.id
  | .sendTransaction _ => NoneLive txs entity.id
  | .accrueFee => Paid txs entity.id entity.txHash
  | .saveOutcome => entity.status = .settled → Paid txs entity.id entity.txHash
  | _ => True

theorem StageSound.mono {txs txs' : List Transaction} {entity : SettlementRow} {stage : Stage}
    (h : StageSound txs entity stage) (hev : Evolved entity.id txs txs') :
    StageSound txs' entity stage := by
  cases stage with
  | confirmations => exact Paid.mono h hev
  | savePending => exact h
  | assertGasWithinCap => exact NoneLive.mono h hev
  | sendTransaction amountWei => exact NoneLive.mono h hev
  | accrueFee => exact Paid.mono h hev
  | saveOutcome => exact fun hsettled => (h hsettled).mono hev
  | getTransactionReceipt => trivial
  | getTransaction => trivial
  | saveHash => trivial
  | waitFor => trivial

/-- An attempt under way, with the entity it has in memory. -/
structure Busy (store : Store) (caller : Caller) (entity : SettlementRow) (stage : Stage) : Prop where
  stored : ∃ row, store.find entity.id = some row ∧ caller.expects row.status = true
  status : stage.beforeOutcome = true → caller.expects entity.status = true
  owns : Owns store.transactions entity.id entity.txHash
  known : Known store.transactions entity.id entity.txHash
  sound : StageSound store.transactions entity stage

/-- An attempt on another settlement does not disturb this one. -/
theorem Busy.frame {store store' : Store} {caller : Caller} {entity : SettlementRow} {stage : Stage}
    (h : Busy store caller entity stage) (hfind : store'.find entity.id = store.find entity.id)
    (hev : Evolved entity.id store.transactions store'.transactions) :
    Busy store' caller entity stage where
  stored := by
    rw [hfind]
    exact h.stored
  status := h.status
  owns := h.owns.mono hev
  known := h.known.mono hev
  sound := h.sound.mono hev

/-! ## The store -/

structure StoreSound (store : Store) : Prop where
  rows : Table.Keyed SettlementRow.id store.settlements
  hashes : Table.Keyed Transaction.hash store.transactions
  parents : ∀ tx ∈ store.transactions, ∃ row, store.find tx.settlementId = some row

theorem find_save_self (store : Store) (entity : SettlementRow) :
    (store.save entity).find entity.id = some entity.stored :=
  Table.lookup_put_self store.settlements entity.stored

theorem find_save_of_ne {store : Store} {entity : SettlementRow} {id : SettlementId}
    (h : id ≠ entity.id) : (store.save entity).find id = store.find id :=
  Table.lookup_put_of_ne store.settlements entity.stored (Ne.symm h)

theorem StoreSound.save {store : Store} (h : StoreSound store) (entity : SettlementRow) :
    StoreSound (store.save entity) where
  rows := h.rows.put
  hashes := h.hashes
  parents := by
    intro tx htx
    by_cases hid : tx.settlementId = entity.id
    · exact ⟨entity.stored, by rw [hid]; exact find_save_self store entity⟩
    · rw [find_save_of_ne hid]
      exact h.parents tx htx

theorem StoreSound.broadcast {store : Store} (h : StoreSound store) {tx : Transaction}
    (hparent : ∃ row, store.find tx.settlementId = some row) : StoreSound (store.broadcast tx) where
  rows := h.rows
  hashes := h.hashes.put
  parents := by
    intro tx' htx'
    rcases Table.mem_put htx' with rfl | ⟨hmem, _⟩
    · exact hparent
    · exact h.parents tx' hmem

@[simp] theorem stored_id (entity : SettlementRow) : entity.stored.id = entity.id := rfl

@[simp] theorem stored_status (entity : SettlementRow) : entity.stored.status = entity.status := rfl

@[simp] theorem stored_txHash (entity : SettlementRow) : entity.stored.txHash = entity.txHash := rfl

theorem accrue_fields (store : Store) (entity : SettlementRow) :
    (store.accrue entity).settlements = store.settlements ∧
      (store.accrue entity).transactions = store.transactions := by
  unfold Store.accrue
  split
  · exact ⟨rfl, rfl⟩
  · split
    · exact ⟨rfl, rfl⟩
    · split
      · exact ⟨rfl, rfl⟩
      · exact ⟨rfl, rfl⟩

theorem emitOutcome_fields (store : Store) (entity : SettlementRow) :
    (store.emitOutcome entity).settlements = store.settlements ∧
      (store.emitOutcome entity).transactions = store.transactions := by
  unfold Store.emitOutcome
  split
  · exact ⟨rfl, rfl⟩
  · exact ⟨rfl, rfl⟩
  · exact ⟨rfl, rfl⟩
  · exact ⟨rfl, rfl⟩

/-- Stores that agree on rows and transactions are equally sound. -/
theorem StoreSound.congr {store store' : Store} (h : StoreSound store)
    (hrows : store'.settlements = store.settlements)
    (htxs : store'.transactions = store.transactions) : StoreSound store' where
  rows := by
    rw [hrows]
    exact h.rows
  hashes := by
    rw [htxs]
    exact h.hashes
  parents := by
    intro tx htx
    rw [htxs] at htx
    simpa [Store.find, hrows] using h.parents tx htx

/-! ## One step of an attempt -/

/-- What a step of an attempt on `entity` does to the store. -/
structure Progress (store store' : Store) (entity : SettlementRow) : Prop where
  sound : StoreSound store'
  frame : ∀ id, id ≠ entity.id →
    store'.find id = store.find id ∧ Evolved id store.transactions store'.transactions

theorem Progress.of_congr {store store' : Store} (entity : SettlementRow) (h : StoreSound store)
    (hrows : store'.settlements = store.settlements)
    (htxs : store'.transactions = store.transactions) : Progress store store' entity where
  sound := h.congr hrows htxs
  frame := by
    intro id _
    rw [htxs]
    exact ⟨by simp [Store.find, hrows], Evolved.refl id _⟩

theorem Progress.save {store : Store} (h : StoreSound store) (entity : SettlementRow) :
    Progress store (store.save entity) entity where
  sound := h.save entity
  frame := fun id hid => ⟨find_save_of_ne hid, Evolved.refl id _⟩

/-- Where an attempt on `entity` is left by a step. -/
def FlowSound (store : Store) (caller : Caller) (entity : SettlementRow) : Flow → Prop
  | .await next stage => next.id = entity.id ∧ Busy store caller next stage
  | .returned => ∃ row, store.find entity.id = some row ∧ RowSound store.transactions row
  | .thrown _ => False

section Attempt

variable {store : Store} {caller : Caller} {entity : SettlementRow} {stage : Stage}

/-- Moving on to a wait with another amount of knowledge about the same transaction. -/
theorem Busy.move (h : Busy store caller entity stage) {next : SettlementRow} {stage' : Stage}
    (hid : next.id = entity.id) (hhash : next.txHash = entity.txHash)
    (hstatus : stage'.beforeOutcome = true → caller.expects next.status = true)
    (hsound : StageSound store.transactions next stage') :
    next.id = entity.id ∧ Busy store caller next stage' := by
  refine ⟨hid, ⟨?_, hstatus, ?_, ?_, hsound⟩⟩
  · rw [hid]
    exact h.stored
  · rw [hid, hhash]
    exact h.owns
  · rw [hid, hhash]
    exact h.known

theorem failureOutcome_ne_settled (cfg : Config) (now : Time) (attempts : Nat) (error : Failure) :
    (failureOutcome cfg now attempts error).1 ≠ .settled := by
  unfold failureOutcome
  split
  · simp
  · split
    · simp
    · simp

theorem Busy.fail (h : Busy store caller entity stage) (cfg : Config) (now : Time) (error : Failure) :
    FlowSound store caller entity (.await (recordFailure cfg now entity error) .saveOutcome) :=
  h.move rfl rfl (by simp [Stage.beforeOutcome])
    (fun hsettled => absurd hsettled (failureOutcome_ne_settled cfg now entity.attempts error))

theorem Busy.keepWaiting (h : Busy store caller entity stage) (cfg : Config) (now : Time) :
    FlowSound store caller entity (.await (keepWaiting cfg now entity) .savePending) :=
  h.move rfl rfl (by simp [Stage.beforeOutcome]) (by simp [StageSound, Settlement.keepWaiting])

theorem Busy.markPaid (h : Busy store caller entity stage)
    (hpaid : Paid store.transactions entity.id entity.txHash) (now : Time) :
    FlowSound store caller entity (.await (markPaid now entity) .accrueFee) :=
  h.move rfl rfl (by simp [Stage.beforeOutcome]) hpaid

theorem Busy.send (h : Busy store caller entity stage) (hbefore : stage.beforeOutcome = true)
    (hnone : NoneLive store.transactions entity.id) :
    FlowSound store caller entity (.await entity .assertGasWithinCap) :=
  h.move rfl rfl (fun _ => h.status hbefore) hnone

/-- The row is written with what the entity knows. -/
theorem Busy.saved (h : Busy store caller entity stage)
    (hpaid : entity.status = .settled → Paid store.transactions entity.id entity.txHash) :
    ∃ row, (store.save entity).find entity.id = some row ∧
      RowSound (store.save entity).transactions row :=
  ⟨entity.stored, find_save_self store entity, ⟨h.owns, h.known, hpaid⟩⟩

/-- The attempt is told that a save failed. -/
def storageFails (stage : Stage) (reply : Reply) : Bool :=
  match stage, reply with
  | .savePending, .failed _ => true
  | .saveHash, .failed _ => true
  | .saveOutcome, .failed _ => true
  | _, _ => false

/-- A new transaction becomes the known one; all earlier ones have failed. -/
theorem Busy.broadcast (hstore : StoreSound store) {amountWei : Int}
    (h : Busy store caller entity (.sendTransaction amountWei)) {hash : TxHash}
    (hfresh : Table.lookup Transaction.hash store.transactions hash = none) :
    Progress store
        (store.broadcast { hash, settlementId := entity.id, amountWei, fate := .pending }) entity ∧
      FlowSound (store.broadcast { hash, settlementId := entity.id, amountWei, fate := .pending })
        caller entity (.await { entity with txHash := some hash } .saveHash) := by
  rcases h.stored with ⟨row, hrow, hstatus⟩
  refine ⟨⟨hstore.broadcast ⟨row, hrow⟩, ?_⟩, rfl, ?_⟩
  · intro id hid
    exact ⟨rfl, evolved_broadcast hfresh (Ne.symm hid)⟩
  · refine ⟨⟨row, hrow, hstatus⟩, fun _ => h.status rfl, ?_, ?_, trivial⟩
    · intro tx htx hid hlive
      rcases Table.mem_put htx with rfl | ⟨hmem, _⟩
      · rfl
      -- what the attempt knew before sending: none of the earlier ones is live
      · have hdead : tx.fate.live = false := h.sound tx hmem hid
        simp [hdead] at hlive
    · intro k hk
      have hEq : hash = k := by simpa using hk
      subst hEq
      exact ⟨_, List.mem_cons_self, rfl, rfl⟩

/-- One step of an attempt keeps everything it knows, as long as storage works. -/
theorem attemptStep_sound {cfg : Config} {now : Time} {store' : Store} {reply : Reply} {flow : Flow}
    (hstore : StoreSound store) (h : Busy store caller entity stage)
    (hok : storageFails stage reply = false)
    (hstep : attemptStep cfg now entity stage reply store = some (store', flow)) :
    Progress store store' entity ∧ FlowSound store' caller entity flow := by
  have hsame : Progress store store entity := Progress.of_congr entity hstore rfl rfl
  cases attempts_of_attemptStep hstep with
  | mined hfate =>
      exact ⟨hsame, h.move rfl rfl (fun _ => h.status rfl)
        (paid_of_fateOf hstore.hashes h.known hfate)⟩
  | reverted hfate =>
      exact ⟨hsame, h.send rfl (noneLive_of_fateOf hstore.hashes h.owns (by rw [hfate]; rfl))⟩
  | noReceipt => exact ⟨hsame, h.move rfl rfl (fun _ => h.status rfl) trivial⟩
  -- that the transaction was mined is known from the wait before; the depth only adds to it
  | deep _ _ => exact ⟨hsame, h.markPaid h.sound now⟩
  | shallow _ _ => exact ⟨hsame, h.keepWaiting cfg now⟩
  | gone hfate =>
      exact ⟨hsame, h.send rfl (noneLive_of_fateOf hstore.hashes h.owns (by rw [hfate]; rfl))⟩
  | inMempool _ => exact ⟨hsame, h.keepWaiting cfg now⟩
  | pendingSaved =>
      -- an attempt that keeps waiting has set the status to retrying
      exact ⟨Progress.save hstore entity, h.saved (fun hsettled => absurd hsettled h.sound)⟩
  | gasTooHigh _ => exact ⟨hsame, h.fail cfg now _⟩
  | badAmount _ => exact ⟨hsame, h.fail cfg now _⟩
  | gasAccepted _ _ => exact ⟨hsame, h.move rfl rfl (fun _ => h.status rfl) h.sound⟩
  | broadcast hfresh => exact h.broadcast hstore hfresh
  | hashSaved =>
      -- the row keeps the status it was read with
      have hstatus := h.status rfl
      exact ⟨Progress.save hstore entity, rfl,
        ⟨⟨entity.stored, find_save_self store entity, hstatus⟩, fun _ => hstatus, h.owns, h.known,
          trivial⟩⟩
  | confirmed hfate _ =>
      exact ⟨hsame, h.markPaid (paid_of_fateOf hstore.hashes h.known hfate) now⟩
  | accrued =>
      -- the fee ledger is a table of its own
      rcases accrue_fields store entity with ⟨hrows, htxs⟩
      have hbusy : Busy (store.accrue entity) caller entity .accrueFee :=
        h.frame (by simp [Store.find, hrows]) (by rw [htxs]; exact Evolved.refl _ _)
      exact ⟨Progress.of_congr entity hstore hrows htxs,
        hbusy.move rfl rfl (by simp [Stage.beforeOutcome]) (fun _ => hbusy.sound)⟩
  | notAccrued =>
      exact ⟨hsame, h.move rfl rfl (by simp [Stage.beforeOutcome]) (fun _ => h.sound)⟩
  | outcomeSaved =>
      rcases emitOutcome_fields (store.save entity) entity with ⟨hrows, htxs⟩
      have hsaved := Progress.save hstore entity
      refine ⟨⟨hsaved.sound.congr hrows htxs, ?_⟩, ?_⟩
      · intro id hid
        rw [htxs]
        simpa [Store.find, hrows] using hsaved.frame id hid
      · rcases h.saved h.sound with ⟨row, hrow, hsound⟩
        refine ⟨row, ?_, ?_⟩
        · simpa [Store.find, hrows] using hrow
        · rw [htxs]
          exact hsound
  | outcomeLost => simp [storageFails] at hok
  | caught _ _ => exact ⟨hsame, h.fail cfg now _⟩

end Attempt

end Settlement
end PaymentRail
