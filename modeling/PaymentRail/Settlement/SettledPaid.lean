import PaymentRail.Settlement.Accruals

/-!
# SettledPaid — a settled row has been paid, for its own escrow

A row is copied into memory when an attempt begins, and written back several times.  In every run of
the settlement machine, whatever interleaves and whichever writes fail,

* no copy changes the escrow of its settlement;
* a copy that says SETTLED has a mined transaction.

Neither needs what `Invariant` needs, that one settlement is attempted by one process at a time.
-/

namespace PaymentRail
namespace Settlement

open Machine Strings Money Fees Collections

/-! ## Copies of a row -/

/-- The escrow a settlement pays from. -/
def Store.escrowOf (store : Store) (id : SettlementId) : Option Text :=
  (store.find id).map SettlementRow.escrowId

structure Copy (store : Store) (row : SettlementRow) : Prop where
  escrow : store.escrowOf row.id = some row.escrowId
  paid : row.status = .settled → ∃ hash, Paid store.transactions row.id hash

def Process.Copies (store : Store) : Process → Prop
  | .insert entity => entity.status ≠ .settled
  | .attempt caller _ entity _ => Copy store entity ∧ ∀ row ∈ caller.rest, Copy store row
  | _ => True

structure Copied (s : State) : Prop where
  rows : ∀ id row, s.store.find id = some row → Copy s.store row
  processes : ∀ pid p, s.process pid = some p → p.Copies s.store

/-- A store in which more is known, and no settlement has another escrow. -/
structure Continues (store store' : Store) : Prop where
  grows : Grows store store'
  escrow : ∀ id escrowId, store.escrowOf id = some escrowId → store'.escrowOf id = some escrowId

section Monotone

variable {store store' : Store}

theorem Copy.mono {row : SettlementRow} (h : Copy store row) (hcontinues : Continues store store') :
    Copy store' row := by
  refine ⟨hcontinues.escrow _ _ h.escrow, ?_⟩
  intro hstatus
  rcases h.paid hstatus with ⟨hash, hpaid⟩
  exact ⟨hash, hcontinues.grows.paid hpaid⟩

theorem Process.Copies.mono {p : Process} (h : p.Copies store)
    (hcontinues : Continues store store') : p.Copies store' := by
  cases p with
  | insert entity => exact h
  | attempt caller now entity stage =>
      exact ⟨h.1.mono hcontinues, fun row hrow => (h.2 row hrow).mono hcontinues⟩
  | _ => trivial

/-- A copy with another counter or another status is as good a copy, unless it says SETTLED. -/
theorem Copy.congr {entity row : SettlementRow} (h : Copy store entity) (hid : row.id = entity.id)
    (hescrow : row.escrowId = entity.escrowId)
    (hstatus : row.status = entity.status ∨ row.status ≠ .settled) : Copy store row := by
  refine ⟨by rw [hid, hescrow]; exact h.escrow, ?_⟩
  intro hsettled
  rcases hstatus with hsame | hother
  · rw [hid]
    exact h.paid (hsame.symm.trans hsettled)
  · exact absurd hsettled hother

theorem escrowOf_save_self (store : Store) (entity : SettlementRow) :
    (store.save entity).escrowOf entity.id = some entity.escrowId := by
  rw [Store.escrowOf, find_save_self]
  rfl

theorem escrowOf_save_of_ne {entity : SettlementRow} {id : SettlementId} (h : id ≠ entity.id) :
    (store.save entity).escrowOf id = store.escrowOf id := by
  rw [Store.escrowOf, find_save_of_ne h]
  rfl

theorem escrowOf_congr (h : store'.settlements = store.settlements) (id : SettlementId) :
    store'.escrowOf id = store.escrowOf id := by
  rw [Store.escrowOf, find_congr h]
  rfl

/-- A save of a copy, or of a new row. -/
theorem escrow_of_save {entity : SettlementRow}
    (h : store.find entity.id = none ∨ store.escrowOf entity.id = some entity.escrowId)
    (id : SettlementId) (escrowId : Text) (hescrow : store.escrowOf id = some escrowId) :
    (store.save entity).escrowOf id = some escrowId := by
  by_cases hid : id = entity.id
  · subst hid
    rw [escrowOf_save_self]
    rcases h with hfresh | hsame
    · rw [Store.escrowOf, hfresh] at hescrow
      cases hescrow
    · exact hsame.symm.trans hescrow
  · rw [escrowOf_save_of_ne hid]
    exact hescrow

/-- The row that is read back is a copy of the entity that was saved. -/
theorem Copy.stored {entity : SettlementRow} (h : Copy store entity) : Copy store entity.stored :=
  h.congr rfl rfl (Or.inl rfl)

end Monotone

/-! ## One step of an attempt -/

section Attempt

variable {cfg : Config} {begun : Time} {entity : SettlementRow} {stage : Stage} {reply : Reply}
  {store store' : Store} {flow : Flow}

theorem attempts_continues (hbill : Bill cfg.policy store entity) (hcopy : Copy store entity)
    (h : Attempts cfg begun entity store stage reply store' flow) : Continues store store' := by
  refine ⟨attempts_grows hbill h, ?_⟩
  intro id escrowId hescrow
  rcases attempts_settlements h with hsame | ⟨hsaved, _⟩
  · rw [escrowOf_congr hsame]
    exact hescrow
  · rw [escrowOf_congr hsaved]
    exact escrow_of_save (Or.inr hcopy.escrow) id escrowId hescrow

/-- A paid settlement is marked as settled. -/
theorem Copy.markPaid (h : Copy store entity) (now : Time)
    (hpaid : Paid store.transactions entity.id entity.txHash) :
    Copy store (Settlement.markPaid now entity) :=
  ⟨h.escrow, fun _ => ⟨entity.txHash, hpaid⟩⟩

theorem attempts_copy {next : SettlementRow} {stage' : Stage}
    (hkeyed : Table.Keyed Transaction.hash store.transactions) (hbill : Bill cfg.policy store entity)
    (hcopy : Copy store entity)
    (h : Attempts cfg begun entity store stage reply store' (.await next stage')) :
    Copy store' next := by
  have hmono := hcopy.mono (attempts_continues hbill hcopy h)
  have hfailed : ∀ error, Copy store (recordFailure cfg begun entity error) :=
    fun error => hcopy.congr rfl rfl (Or.inr (failureOutcome_ne_settled cfg begun _ error))
  cases h with
  | deep hfate _ => exact hcopy.markPaid begun (paid_of_fateOf hkeyed hbill.known hfate)
  | confirmed hfate _ => exact hcopy.markPaid begun (paid_of_fateOf hkeyed hbill.known hfate)
  | broadcast hfresh => exact hmono.congr rfl rfl (Or.inl rfl)
  | shallow _ _ => exact hcopy.congr rfl rfl (Or.inr nofun)
  | inMempool _ => exact hcopy.congr rfl rfl (Or.inr nofun)
  | gasTooHigh _ => exact hfailed _
  | badAmount _ => exact hfailed _
  | caught _ _ => exact hfailed _
  | _ => exact hmono

theorem attempts_rows (hbill : Bill cfg.policy store entity) (hcopy : Copy store entity)
    (hrows : ∀ id row, store.find id = some row → Copy store row)
    (h : Attempts cfg begun entity store stage reply store' flow) :
    ∀ id row, store'.find id = some row → Copy store' row := by
  have hcontinues := attempts_continues hbill hcopy h
  intro id row hrow
  rcases attempts_settlements h with hsame | ⟨hsaved, _⟩
  · rw [find_congr hsame] at hrow
    exact (hrows id row hrow).mono hcontinues
  · rw [find_congr hsaved] at hrow
    by_cases hid : id = entity.id
    · subst hid
      rw [find_save_self] at hrow
      cases hrow
      exact (hcopy.mono hcontinues).stored
    · rw [find_save_of_ne hid] at hrow
      exact (hrows id row hrow).mono hcontinues

end Attempt

/-! ## One step of the machine -/

section Steps

variable {cfg : Config} {s s' : State} {pid : Pid} {now : Time} {reply : Reply} {p p' : Process}

theorem copies_startAttempt {store : Store} {row : SettlementRow} (h : Copy store row)
    (caller : Caller) (now : Time) (hrest : ∀ r ∈ caller.rest, Copy store r) :
    (Process.attempt caller now (startAttempt row).1 (startAttempt row).2).Copies store := by
  refine ⟨?_, hrest⟩
  cases hhash : row.txHash with
  | none =>
      simp only [startAttempt, hhash]
      exact h.congr rfl rfl (Or.inl rfl)
  | some hash =>
      simp only [startAttempt, hhash]
      exact h.congr rfl rfl (Or.inl rfl)

theorem continues_insert {store : Store} {entity : SettlementRow}
    (hfresh : store.find entity.id = none) : Continues store (store.save entity) :=
  ⟨.save (Or.inl hfresh), escrow_of_save (Or.inl hfresh)⟩

/-- A new row is a copy of itself. -/
theorem copy_insert {store : Store} {entity : SettlementRow} (hstatus : entity.status ≠ .settled) :
    Copy (store.save entity) entity :=
  ⟨escrowOf_save_self store entity, fun hsettled => absurd hsettled hstatus⟩

theorem resumes_continues (hbilled : Billed cfg.policy s) (hcopied : Copied s)
    (hp : s.process pid = some p) (hresumes : Resumes cfg s pid now p reply s') :
    Continues s.store s'.store ∧ ∀ id row, s'.store.find id = some row → Copy s'.store row := by
  have hprocess := hcopied.processes pid p hp
  have hinserted : ∀ entity : SettlementRow, entity.status ≠ .settled →
      s.store.find entity.id = none → Continues s.store (s.store.save entity) ∧
        ∀ id row, (s.store.save entity).find id = some row → Copy (s.store.save entity) row := by
    intro entity hstatus hfresh
    refine ⟨continues_insert hfresh, ?_⟩
    intro id row hrow
    by_cases hid : id = entity.id
    · subst hid
      rw [find_save_self] at hrow
      cases hrow
      exact (copy_insert hstatus).stored
    · rw [find_save_of_ne hid] at hrow
      exact (hcopied.rows id row hrow).mono (continues_insert hfresh)
  have hunchanged : Continues s.store s.store := ⟨.refl s.store, fun _ _ h => h⟩
  cases hresumes with
  | inserted hfresh _ => exact hinserted _ hprocess hfresh
  | insertedOnly hfresh _ => exact hinserted _ hprocess hfresh
  | scanned =>
      rw [nextDue_store]
      exact ⟨hunchanged, hcopied.rows⟩
  | attempted hattempt =>
      have hattempts := attempts_of_attemptStep hattempt
      have hbill := (hbilled.processes pid _ hp).1
      rw [proceed_store]
      exact ⟨attempts_continues hbill hprocess.1 hattempts,
        attempts_rows hbill hprocess.1 hcopied.rows hattempts⟩
  | _ => exact ⟨hunchanged, hcopied.rows⟩

theorem turns_copies {store' : Store} (hbilled : Billed cfg.policy s) (hcopied : Copied s)
    (hp : s.process pid = some p) (hcontinues : Continues s.store store')
    (hturns : Turns cfg s now p reply store' p') : p'.Copies store' := by
  have hprocess := hcopied.processes pid p hp
  cases hturns with
  | inserted hfresh =>
      exact copies_startAttempt (copy_insert hprocess) _ _ fun _ hr => absurd hr List.not_mem_nil
  | @replayed id row hrow _ _ _ =>
      have hcopy : Copy s.store { row with attempts := 0 } :=
        (hcopied.rows id row hrow).congr rfl rfl (Or.inl rfl)
      exact copies_startAttempt hcopy .replay now fun _ hr => absurd hr List.not_mem_nil
  | @scanned tick row rest hdue =>
      have hrows : ∀ r ∈ row :: rest, Copy s.store r := by
        intro r hr
        rw [← hdue] at hr
        exact hcopied.rows r.id r
          (Table.lookup_of_mem hbilled.store.keyed (mem_findDueRetries hr).1)
      exact copies_startAttempt (hrows row List.mem_cons_self) _ _
        (fun r hr => hrows r (List.mem_cons_of_mem _ hr))
  | awaits hattempts =>
      exact ⟨attempts_copy hbilled.store.hashes (hbilled.processes pid _ hp).1 hprocess.1 hattempts,
        fun row hrow => (hprocess.2 row hrow).mono hcontinues⟩
  | nextDue _ =>
      exact copies_startAttempt ((hprocess.2 _ List.mem_cons_self).mono hcontinues) _ _
        (fun r hr => (hprocess.2 r (List.mem_cons_of_mem _ hr)).mono hcontinues)

theorem resumes_copied (hbilled : Billed cfg.policy s) (hcopied : Copied s)
    (hp : s.process pid = some p) (hresumes : Resumes cfg s pid now p reply s') : Copied s' := by
  rcases resumes_continues hbilled hcopied hp hresumes with ⟨hcontinues, hrows⟩
  refine ⟨hrows, ?_⟩
  intro qid q hq
  by_cases hpid : qid = pid
  · subst hpid
    exact turns_copies hbilled hcopied hp hcontinues (turns_of_resumes hresumes hq)
  · rw [resumes_others hresumes hpid] at hq
    exact (hcopied.processes qid q hq).mono hcontinues

theorem Copied.spawn (hcopied : Copied s) (hp : p.Copies s.store) : Copied (s.spawn pid p) := by
  refine ⟨hcopied.rows, ?_⟩
  intro qid q hq
  by_cases hpid : qid = pid
  · subst hpid
    rw [process_spawn_self] at hq
    cases hq
    exact hp
  · rw [process_spawn_of_ne s pid p hpid] at hq
    exact hcopied.processes qid q hq

/-- The chain moves on. -/
theorem continues_evolve (hbilled : Billed cfg.policy s) {tx : Transaction} {fate : Fate}
    (hmem : tx ∈ s.store.transactions) (hbecome : tx.fate.canBecome fate = true) :
    Continues s.store (s.store.broadcast { tx with fate }) :=
  ⟨.evolve hbilled.store.hashes hmem hbecome, fun _ _ h => h⟩

theorem evolve_copied (hbilled : Billed cfg.policy s) (hcopied : Copied s) {tx : Transaction}
    {fate : Fate} (hmem : tx ∈ s.store.transactions) (hbecome : tx.fate.canBecome fate = true) :
    Copied { s with store := s.store.broadcast { tx with fate } } := by
  have hcontinues := continues_evolve hbilled hmem hbecome
  exact ⟨fun id row hrow => (hcopied.rows id row hrow).mono hcontinues,
    fun pid p hp => (hcopied.processes pid p hp).mono hcontinues⟩

theorem step_copied {a : Action} (hbilled : Billed cfg.policy s) (hcopied : Copied s)
    (hstep : step cfg a s = some s') : Continues s.store s'.store ∧ Copied s' := by
  have hunchanged : Continues s.store s.store := ⟨.refl s.store, fun _ _ h => h⟩
  cases acts_of_step hstep with
  | settleBatch _ _ hentity =>
      refine ⟨hunchanged, hcopied.spawn ?_⟩
      intro hsettled
      rw [(newSettlement_fields hentity).1] at hsettled
      cases hsettled
  | @processDue pid now _ _ _ =>
      have hspawned : Copied (s.spawn pid (.findDueRetries now)) := hcopied.spawn trivial
      exact ⟨hunchanged, hspawned.rows, hspawned.processes⟩
  | replay _ => exact ⟨hunchanged, hcopied.spawn trivial⟩
  | resume hp hresumes =>
      exact ⟨(resumes_continues hbilled hcopied hp hresumes).1,
        resumes_copied hbilled hcopied hp hresumes⟩
  | evolve htx hbecome =>
      exact ⟨continues_evolve hbilled (Table.mem_of_lookup htx) hbecome,
        evolve_copied hbilled hcopied (Table.mem_of_lookup htx) hbecome⟩
  | setPaused => exact ⟨hunchanged, hcopied.rows, hcopied.processes⟩

end Steps

theorem initial_copied : Copied initial where
  rows := by
    intro id row hrow
    cases hrow
  processes := by
    intro pid p hp
    cases hp

end Settlement
end PaymentRail
