import PaymentRail.Settlement.ProcessSafety

/-!
# BatchFields — the batch of a settlement never changes

An attempt rewrites the row of its settlement from an entity it has read earlier.  The columns that
say what is settled (escrow, root, total, count and packed receipts) are carried along unchanged, so
they stay what `settleBatch` wrote, whichever attempts, retries and replays follow and however they
end.

- `SettlementRow.batch` : these columns
- `Kept` : every stored row is still there, with the same batch
- `step_kept` : one step of the machine, from any state in which the entities in memory agree with
  the store
-/

namespace PaymentRail
namespace Settlement

open Machine Strings Money Fees Collections

/-! ## The batch of a row -/

theorem decimalColumn_decimalColumn (text : Text) :
    decimalColumn (decimalColumn text) = decimalColumn text := by
  cases h : amountFrom text with
  | error message => simp [decimalColumn, h]
  | ok a =>
      have hcolumn : decimalColumn text = a.toFixed := by simp [decimalColumn, h]
      rw [hcolumn]
      simp [decimalColumn, Amount.amountFrom_toFixed]

/-- What is settled, with the total as its column gives it back. -/
def SettlementRow.batch (row : SettlementRow) : SettleBatchInput where
  escrowId := row.escrowId
  receiptsHash := row.receiptsHash
  totalAmount := decimalColumn row.totalAmount
  receiptCount := row.receiptCount
  packedReceipts := row.packedReceipts

@[simp] theorem batch_stored (entity : SettlementRow) : entity.stored.batch = entity.batch := by
  simp [SettlementRow.batch, SettlementRow.stored, decimalColumn_decimalColumn]

theorem batch_startAttempt (row : SettlementRow) : (startAttempt row).1.batch = row.batch := by
  cases hhash : row.txHash with
  | none => simp [startAttempt, hhash, SettlementRow.batch]
  | some hash => simp [startAttempt, hhash, SettlementRow.batch]

/-! ## Stores -/

/-- Every row is still there and settles the same batch. -/
structure Kept (store store' : Store) : Prop where
  rows : ∀ id row, store.find id = some row →
    ∃ row', store'.find id = some row' ∧ row'.batch = row.batch
  keyed : Table.Keyed SettlementRow.id store.settlements →
    Table.Keyed SettlementRow.id store'.settlements

/-- The entity agrees with its row. -/
def Backed (store : Store) (entity : SettlementRow) : Prop :=
  ∃ row, store.find entity.id = some row ∧ row.batch = entity.batch

section Stores

variable {store store' : Store} {entity : SettlementRow}

theorem Kept.of_settlements (h : store'.settlements = store.settlements) : Kept store store' where
  rows := by
    intro id row hrow
    exact ⟨row, by simpa [Store.find, h] using hrow, rfl⟩
  keyed := by
    rw [h]
    exact id

theorem Kept.trans {store'' : Store} (h : Kept store store') (h' : Kept store' store'') :
    Kept store store'' where
  rows := by
    intro id row hrow
    rcases h.rows id row hrow with ⟨row', hrow', hbatch⟩
    rcases h'.rows id row' hrow' with ⟨row'', hrow'', hbatch'⟩
    exact ⟨row'', hrow'', hbatch'.trans hbatch⟩
  keyed := fun hkeyed => h'.keyed (h.keyed hkeyed)

theorem Backed.mono (h : Backed store entity) (hkept : Kept store store') : Backed store' entity := by
  rcases h with ⟨row, hrow, hbatch⟩
  rcases hkept.rows _ row hrow with ⟨row', hrow', hbatch'⟩
  exact ⟨row', hrow', hbatch'.trans hbatch⟩

theorem Backed.of_eq (h : Backed store entity) {next : SettlementRow} (hid : next.id = entity.id)
    (hbatch : next.batch = entity.batch) : Backed store next := by
  rcases h with ⟨row, hrow, hrowBatch⟩
  exact ⟨row, by rw [hid]; exact hrow, hrowBatch.trans hbatch.symm⟩

theorem backed_save (store : Store) (entity : SettlementRow) : Backed (store.save entity) entity :=
  ⟨entity.stored, find_save_self store entity, batch_stored entity⟩

/-- Writing an entity back. -/
theorem Backed.kept_save (h : Backed store entity) : Kept store (store.save entity) where
  rows := by
    intro id row hrow
    by_cases hid : id = entity.id
    -- the row is overwritten by an entity that agrees with it
    · rcases h with ⟨row', hrow', hbatch⟩
      have hsame : row = row' := Option.some.inj (hrow.symm.trans (hid ▸ hrow'))
      refine ⟨entity.stored, by rw [hid]; exact find_save_self store entity, ?_⟩
      rw [batch_stored, hsame, hbatch]
    · exact ⟨row, (find_save_of_ne hid).trans hrow, rfl⟩
  keyed := fun h => h.put

/-- Inserting a new row. -/
theorem kept_insert (h : store.find entity.id = none) : Kept store (store.save entity) where
  rows := by
    intro id row hrow
    have hid : id ≠ entity.id := by
      rintro rfl
      rw [h] at hrow
      cases hrow
    exact ⟨row, (find_save_of_ne hid).trans hrow, rfl⟩
  keyed := fun h => h.put

end Stores

/-! ## One step of an attempt -/

/-- The store is as it was, or the entity was written to it; an attempt that goes on carries the
same batch; only the last save can throw. -/
structure Carries (store store' : Store) (entity : SettlementRow) (stage : Stage) (reply : Reply)
    (flow : Flow) : Prop where
  writes : store'.settlements = store.settlements ∨
    store'.settlements = (store.save entity).settlements
  next : ∀ next stage', flow = .await next stage' → next.id = entity.id ∧ next.batch = entity.batch
  thrown : ∀ error, flow = .thrown error → stage = .saveOutcome ∧ reply = .failed error

section Attempt

variable {cfg : Config} {now : Time} {entity : SettlementRow} {stage : Stage} {reply : Reply}
  {store store' : Store} {flow : Flow}

theorem Carries.await {next : SettlementRow} {stage' : Stage}
    (hwrites : store'.settlements = store.settlements ∨
      store'.settlements = (store.save entity).settlements) (hid : next.id = entity.id)
    (hbatch : next.batch = entity.batch) :
    Carries store store' entity stage reply (.await next stage') where
  writes := hwrites
  next := by
    intro next' stage'' h
    cases h
    exact ⟨hid, hbatch⟩
  thrown := by
    intro error h
    cases h

theorem Carries.returned (hwrites : store'.settlements = (store.save entity).settlements) :
    Carries store store' entity stage reply .returned where
  writes := Or.inr hwrites
  next := by
    intro next stage' h
    cases h
  thrown := by
    intro error h
    cases h

theorem attemptStep_carries
    (hstep : attemptStep cfg now entity stage reply store = some (store', flow)) :
    Carries store store' entity stage reply flow := by
  cases attempts_of_attemptStep hstep with
  | pendingSaved => exact .returned rfl
  | hashSaved => exact .await (Or.inr rfl) rfl rfl
  | accrued => exact .await (Or.inl (accrue_fields store entity).1) rfl rfl
  | outcomeSaved => exact .returned (emitOutcome_fields (store.save entity) entity).1
  | outcomeLost =>
      refine ⟨Or.inl rfl, by simp, ?_⟩
      intro error' h
      cases h
      exact ⟨rfl, rfl⟩
  -- all others only change fields of the entity that are not part of the batch
  | _ => exact .await (Or.inl rfl) rfl rfl

theorem Carries.kept (h : Carries store store' entity stage reply flow) (hbacked : Backed store entity) :
    Kept store store' := by
  rcases h.writes with hsame | hsaved
  · exact Kept.of_settlements hsame
  · exact hbacked.kept_save.trans (Kept.of_settlements hsaved)

end Attempt

/-! ## Steps of the machine -/

/-- The entities a process has in memory. -/
def Process.entities : Process → List SettlementRow
  | .attempt (.processDue rest) _ entity _ => entity :: rest
  | .attempt _ _ entity _ => [entity]
  | _ => []

def ProcessBacked (store : Store) (p : Process) : Prop := ∀ entity ∈ p.entities, Backed store entity

/-- Every entity in memory agrees with the store. -/
structure Consistent (s : State) : Prop where
  keyed : Table.Keyed SettlementRow.id s.store.settlements
  processes : ∀ pid p, s.process pid = some p → ProcessBacked s.store p

/-- The process `pid` takes a step: rows are kept, other processes stay as they are, and its own
entities agree with the store. -/
structure Steps (s s' : State) (pid : Pid) : Prop where
  kept : Kept s.store s'.store
  others : ∀ qid, qid ≠ pid → s'.process qid = s.process qid
  own : ∀ p, s'.process pid = some p → ProcessBacked s'.store p

theorem Steps.consistent {s s' : State} {pid : Pid} (h : Steps s s' pid) (hcons : Consistent s) :
    Consistent s' where
  keyed := h.kept.keyed hcons.keyed
  processes := by
    intro qid p hp
    by_cases hqid : qid = pid
    · subst hqid
      exact h.own p hp
    · rw [h.others qid hqid] at hp
      intro entity hentity
      exact (hcons.processes qid p hp entity hentity).mono h.kept

section Steps

variable {s : State} {pid : Pid} {store' : Store}

theorem spawn_steps (hkept : Kept s.store store') {p : Process} (hp : ProcessBacked store' p) :
    Steps s ({ s with store := store' }.spawn pid p) pid where
  kept := hkept
  others := fun qid hqid => process_spawn_of_ne { s with store := store' } pid p hqid
  own := by
    intro q hq
    have hEq : p = q :=
      Option.some.inj ((process_spawn_self { s with store := store' } pid p).symm.trans hq)
    rw [← hEq]
    exact hp

theorem exit_steps (hkept : Kept s.store store') :
    Steps s ({ s with store := store' }.exit pid) pid where
  kept := hkept
  others := fun qid hqid => process_exit_of_ne { s with store := store' } pid hqid
  own := by
    intro q hq
    rw [process_exit_self { s with store := store' } pid] at hq
    cases hq

/-- The flag of the retry queue plays no part. -/
theorem Steps.setRunning {s' : State} (h : Steps s s' pid) (running : Bool) :
    Steps s { s' with running } pid where
  kept := h.kept
  others := h.others
  own := h.own

theorem nextDue_steps (hkept : Kept s.store store') {rest : List SettlementRow}
    (hrest : ∀ row ∈ rest, Backed store' row) (now : Time) :
    Steps s ({ s with store := store' }.nextDue pid now rest) pid := by
  cases rest with
  | nil => exact (exit_steps hkept).setRunning false
  | cons row rest =>
      refine spawn_steps hkept ?_
      intro entity hentity
      rcases List.mem_cons.1 hentity with rfl | hmem
      · exact (hrest row (by simp)).of_eq (startAttempt_id row) (batch_startAttempt row)
      · exact hrest entity (by simp [hmem])

/-- An attempt goes on. -/
theorem proceed_steps {caller : Caller} {now : Time} {entity : SettlementRow} {stage : Stage}
    {reply : Reply} {flow : Flow} (hp : ProcessBacked s.store (.attempt caller now entity stage))
    (hcarries : Carries s.store store' entity stage reply flow) :
    Steps s ({ s with store := store' }.proceed pid caller now flow) pid := by
  have hentity : Backed s.store entity := by
    cases caller with
    | settleBatch => exact hp entity (by simp [Process.entities])
    | replay => exact hp entity (by simp [Process.entities])
    | processDue rest => exact hp entity (by simp [Process.entities])
  have hkept := hcarries.kept hentity
  cases flow with
  | await next stage' =>
      rcases hcarries.next next stage' rfl with ⟨hid, hbatch⟩
      have hnext : Backed store' next := (hentity.mono hkept).of_eq hid hbatch
      refine spawn_steps hkept ?_
      intro e he
      cases caller with
      | settleBatch =>
          rw [List.mem_singleton.1 he]
          exact hnext
      | replay =>
          rw [List.mem_singleton.1 he]
          exact hnext
      | processDue rest =>
          -- the settlements still to come were read together with this one
          rcases List.mem_cons.1 he with rfl | hmem
          · exact hnext
          · exact (hp e (by simp [Process.entities, hmem])).mono hkept
  | returned =>
      cases caller with
      | settleBatch => exact exit_steps hkept
      | replay => exact exit_steps hkept
      | processDue rest =>
          exact nextDue_steps hkept
            (fun row hrow => (hp row (by simp [Process.entities, hrow])).mono hkept) now
  | thrown error =>
      cases caller with
      | settleBatch => exact exit_steps hkept
      | replay => exact exit_steps hkept
      | processDue rest => exact (exit_steps hkept).setRunning false

end Steps

theorem Kept.refl (store : Store) : Kept store store := Kept.of_settlements rfl

theorem processBacked_nil {store : Store} {p : Process} (h : p.entities = []) :
    ProcessBacked store p := by
  intro entity hentity
  rw [h] at hentity
  cases hentity

theorem initial_consistent : Consistent initial where
  keyed := List.nodup_nil
  processes := by
    intro pid p hp
    cases hp

/-- A row read from the store. -/
theorem backed_of_find {store : Store} {id : SettlementId} {row entity : SettlementRow}
    (h : store.find id = some row) (hid : entity.id = row.id) (hbatch : entity.batch = row.batch) :
    Backed store entity := by
  have hkey : row.id = id := Table.key_of_lookup h
  exact ⟨row, by rw [hid, hkey]; exact h, hbatch.symm⟩

section Machine

variable {cfg : Config} {s s' : State}

theorem resumes_steps {pid : Pid} {now : Time} {reply : Reply} {p : Process} (hcons : Consistent s)
    (hp : s.process pid = some p) (hresumes : Resumes cfg s pid now p reply s') : Steps s s' pid := by
  have hexit : Steps s (s.exit pid) pid := exit_steps (Kept.refl s.store)
  cases hresumes with
  | @inserted entity hfresh _ =>
      refine spawn_steps (kept_insert hfresh) ?_
      intro e he
      rw [List.mem_singleton.1 he]
      exact (backed_save s.store entity).of_eq (startAttempt_id entity) (batch_startAttempt entity)
  | insertedOnly hfresh _ => exact exit_steps (kept_insert hfresh)
  | notInserted => exact hexit
  | unknown _ => exact hexit
  | replayed hrow _ _ _ =>
      refine spawn_steps (Kept.refl s.store) ?_
      intro e he
      rw [List.mem_singleton.1 he]
      exact backed_of_find hrow (startAttempt_id _) (batch_startAttempt _)
  | refused _ _ => exact hexit
  | notRead => exact hexit
  | @scanned tick =>
      refine nextDue_steps (Kept.refl s.store) ?_ tick
      intro row hrow
      have hfind := Table.lookup_of_mem hcons.keyed (mem_findDueRetries hrow).1
      exact backed_of_find hfind rfl rfl
  | notScanned => exact hexit.setRunning false
  | attempted hattempt =>
      exact proceed_steps (hcons.processes pid _ hp) (attemptStep_carries hattempt)

/-- A step without a process of its own. -/
structure Idle (s s' : State) : Prop where
  settlements : s'.store.settlements = s.store.settlements
  processes : s'.processes = s.processes

/-- Every step is one of a process, or concerns none. -/
theorem step_steps {a : Action} (hcons : Consistent s) (hstep : step cfg a s = some s') :
    (∃ pid, a.pid = some pid ∧ Steps s s' pid) ∨ (a.pid = none ∧ Idle s s') := by
  have hspawn : ∀ pid p, p.entities = [] → Steps s (s.spawn pid p) pid := fun pid p h =>
    spawn_steps (Kept.refl s.store) (processBacked_nil h)
  cases acts_of_step hstep with
  | @settleBatch pid id input entity _ _ _ => exact Or.inl ⟨pid, rfl, hspawn pid _ rfl⟩
  | @processDue pid now _ _ _ => exact Or.inl ⟨pid, rfl, (hspawn pid _ rfl).setRunning true⟩
  | @replay pid id _ => exact Or.inl ⟨pid, rfl, hspawn pid _ rfl⟩
  | @resume pid _ _ _ _ hp hresumes => exact Or.inl ⟨pid, rfl, resumes_steps hcons hp hresumes⟩
  | evolve _ _ => exact Or.inr ⟨rfl, rfl, rfl⟩
  | setPaused => exact Or.inr ⟨rfl, rfl, rfl⟩

/-- No step of the machine changes what a stored settlement settles. -/
theorem step_kept {a : Action} (hcons : Consistent s) (hstep : step cfg a s = some s') :
    Kept s.store s'.store ∧ Consistent s' ∧
      ∀ qid, a.pid ≠ some qid → s'.process qid = s.process qid := by
  rcases step_steps hcons hstep with ⟨pid, hpid, hsteps⟩ | ⟨hpid, hidle⟩
  · refine ⟨hsteps.kept, hsteps.consistent hcons, ?_⟩
    intro qid hqid
    refine hsteps.others qid ?_
    rintro rfl
    exact hqid hpid
  · have hkept : Kept s.store s'.store := Kept.of_settlements hidle.settlements
    have hsame : ∀ qid, s'.process qid = s.process qid := by
      intro qid
      rw [State.process, State.process, hidle.processes]
    refine ⟨hkept, ⟨hkept.keyed hcons.keyed, ?_⟩, fun qid _ => hsame qid⟩
    intro qid p hp entity hentity
    rw [hsame qid] at hp
    exact (hcons.processes qid p hp entity hentity).mono hkept

end Machine

end Settlement
end PaymentRail
