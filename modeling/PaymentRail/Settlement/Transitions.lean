import PaymentRail.Settlement.SettlementService

/-!
# Transitions — what a step of the settlement machine can do

The functions `attemptStep`, `resume` and `step` as relations, one constructor for each thing that
can happen, with the conditions under which it does.  Every invariant is proved by cases over these
relations; the functions themselves are taken apart only here.
-/

namespace PaymentRail
namespace Settlement

open Machine Strings Money Fees Collections

/-! ## An attempt -/

/-- The steps of `attemptStep`. -/
inductive Attempts (cfg : Config) (now : Time) (entity : SettlementRow) (store : Store) :
    Stage → Reply → Store → Flow → Prop
  -- the earlier transaction, if there is one
  | mined {depth : Nat} (hfate : fateOf store.transactions entity.txHash = .mined depth) :
      Attempts cfg now entity store .getTransactionReceipt .done store (.await entity .confirmations)
  | reverted (hfate : fateOf store.transactions entity.txHash = .reverted) :
      Attempts cfg now entity store .getTransactionReceipt .done store
        (.await entity .assertGasWithinCap)
  | noReceipt :
      Attempts cfg now entity store .getTransactionReceipt .done store (.await entity .getTransaction)
  | deep {depth : Nat} (hfate : fateOf store.transactions entity.txHash = .mined depth)
      (hdepth : cfg.confirmations ≤ depth) :
      Attempts cfg now entity store .confirmations .done store (.await (markPaid now entity) .accrueFee)
  | shallow {depth : Nat} (hfate : fateOf store.transactions entity.txHash = .mined depth)
      (hdepth : ¬ cfg.confirmations ≤ depth) :
      Attempts cfg now entity store .confirmations .done store
        (.await (keepWaiting cfg now entity) .savePending)
  | gone (hfate : fateOf store.transactions entity.txHash = .dropped) :
      Attempts cfg now entity store .getTransaction .done store (.await entity .assertGasWithinCap)
  | inMempool (hfate : fateOf store.transactions entity.txHash ≠ .dropped) :
      Attempts cfg now entity store .getTransaction .done store
        (.await (keepWaiting cfg now entity) .savePending)
  | pendingSaved :
      Attempts cfg now entity store .savePending .done (store.save entity) .returned
  -- sending a new one
  | gasTooHigh {fee : Option Nat} {error : Failure} (hgas : gasFailure cfg fee = some error) :
      Attempts cfg now entity store .assertGasWithinCap (.gas fee) store
        (.await (recordFailure cfg now entity error) .saveOutcome)
  | badAmount {fee : Option Nat} {message : String}
      (hamount : amountFrom entity.totalAmount = .error message) :
      Attempts cfg now entity store .assertGasWithinCap (.gas fee) store
        (.await (recordFailure cfg now entity { code := "", message }) .saveOutcome)
  | gasAccepted {fee : Option Nat} {a : Amount} (hgas : gasFailure cfg fee = none)
      (hamount : amountFrom entity.totalAmount = .ok a) :
      Attempts cfg now entity store .assertGasWithinCap (.gas fee) store
        (.await entity (.sendTransaction a.wei))
  | broadcast {amountWei : Int} {hash : TxHash}
      (hfresh : Table.lookup Transaction.hash store.transactions hash = none) :
      Attempts cfg now entity store (.sendTransaction amountWei) (.sent hash)
        (store.broadcast { hash, settlementId := entity.id, amountWei, fate := .pending })
        (.await { entity with txHash := some hash } .saveHash)
  | hashSaved :
      Attempts cfg now entity store .saveHash .done (store.save entity) (.await entity .waitFor)
  | confirmed {depth : Nat} (hfate : fateOf store.transactions entity.txHash = .mined depth)
      (hdepth : cfg.confirmations ≤ depth) :
      Attempts cfg now entity store .waitFor .done store (.await (markPaid now entity) .accrueFee)
  -- the outcome
  | accrued :
      Attempts cfg now entity store .accrueFee .done (store.accrue entity) (.await entity .saveOutcome)
  | notAccrued {error : Failure} :
      Attempts cfg now entity store .accrueFee (.failed error) store (.await entity .saveOutcome)
  | outcomeSaved :
      Attempts cfg now entity store .saveOutcome .done ((store.save entity).emitOutcome entity) .returned
  | outcomeLost {error : Failure} :
      Attempts cfg now entity store .saveOutcome (.failed error) store (.thrown error)
  -- every other error ends in the catch block
  | caught {stage : Stage} {error : Failure} (hledger : stage ≠ .accrueFee)
      (hlast : stage ≠ .saveOutcome) :
      Attempts cfg now entity store stage (.failed error) store
        (.await (recordFailure cfg now entity error) .saveOutcome)

section Attempts

variable {cfg : Config} {now : Time} {entity : SettlementRow} {stage : Stage} {store store' : Store}
  {flow : Flow}

theorem attempts_of_failed {error : Failure}
    (hstep : attemptStep cfg now entity stage (.failed error) store = some (store', flow)) :
    Attempts cfg now entity store stage (.failed error) store' flow := by
  cases stage with
  | accrueFee =>
      cases hstep
      exact .notAccrued
  | saveOutcome =>
      cases hstep
      exact .outcomeLost
  | _ =>
      cases hstep
      exact .caught (by simp) (by simp)

theorem attempts_of_done
    (hstep : attemptStep cfg now entity stage .done store = some (store', flow)) :
    Attempts cfg now entity store stage .done store' flow := by
  cases stage with
  | getTransactionReceipt =>
      simp only [attemptStep] at hstep
      split at hstep
      · rename_i depth hfate
        cases hstep
        exact .mined hfate
      · rename_i hfate
        cases hstep
        exact .reverted hfate
      · cases hstep
        exact .noReceipt
  | confirmations =>
      simp only [attemptStep] at hstep
      split at hstep
      · rename_i depth hfate
        split at hstep
        · rename_i hdepth
          cases hstep
          exact .deep hfate hdepth
        · rename_i hdepth
          cases hstep
          exact .shallow hfate hdepth
      · cases hstep
  | getTransaction =>
      simp only [attemptStep] at hstep
      split at hstep
      · rename_i hfate
        cases hstep
        exact .gone hfate
      · rename_i hfate
        cases hstep
        exact .inMempool hfate
  | savePending =>
      cases hstep
      exact .pendingSaved
  | saveHash =>
      cases hstep
      exact .hashSaved
  | waitFor =>
      simp only [attemptStep] at hstep
      split at hstep
      · rename_i depth hfate
        split at hstep
        · rename_i hdepth
          cases hstep
          exact .confirmed hfate hdepth
        · cases hstep
      · cases hstep
  | accrueFee =>
      cases hstep
      exact .accrued
  | saveOutcome =>
      cases hstep
      exact .outcomeSaved
  -- these two are not answered with a bare `done`
  | assertGasWithinCap => cases hstep
  | sendTransaction amountWei => cases hstep

theorem attempts_of_attemptStep {reply : Reply}
    (hstep : attemptStep cfg now entity stage reply store = some (store', flow)) :
    Attempts cfg now entity store stage reply store' flow := by
  cases reply with
  | done => exact attempts_of_done hstep
  | failed error => exact attempts_of_failed hstep
  | gas fee =>
      cases stage with
      | assertGasWithinCap =>
          simp only [attemptStep] at hstep
          split at hstep
          · rename_i error hgas
            cases hstep
            exact .gasTooHigh hgas
          · rename_i hgas
            split at hstep
            · rename_i message hamount
              cases hstep
              exact .badAmount hamount
            · rename_i a hamount
              cases hstep
              exact .gasAccepted hgas hamount
      | _ => cases hstep
  | sent hash =>
      cases stage with
      | sendTransaction amountWei =>
          simp only [attemptStep] at hstep
          split at hstep
          · rename_i hfresh
            cases hstep
            exact .broadcast hfresh
          · cases hstep
      | _ => cases hstep

theorem attempts_id {reply : Reply} {next : SettlementRow} {stage' : Stage}
    (h : Attempts cfg now entity store stage reply store' (.await next stage')) :
    next.id = entity.id := by
  cases h with
  | _ => rfl

end Attempts

/-! ## A process -/

/-- The steps of `resume`. -/
inductive Resumes (cfg : Config) (s : State) (pid : Pid) (now : Time) : Process → Reply → State → Prop
  -- `settleBatch`
  | inserted {entity : SettlementRow} (hfresh : s.store.find entity.id = none)
      (hhub : cfg.hubConfigured = true) :
      Resumes cfg s pid now (.insert entity) .done
        ({ s with store := s.store.save entity }.spawn pid
          (.attempt .settleBatch now (startAttempt entity).1 (startAttempt entity).2))
  | insertedOnly {entity : SettlementRow} (hfresh : s.store.find entity.id = none)
      (hhub : cfg.hubConfigured = false) :
      Resumes cfg s pid now (.insert entity) .done ({ s with store := s.store.save entity }.exit pid)
  | notInserted {entity : SettlementRow} {error : Failure} :
      Resumes cfg s pid now (.insert entity) (.failed error) (s.exit pid)
  -- `replay`
  | unknown {id : SettlementId} (hrow : s.store.find id = none) :
      Resumes cfg s pid now (.findById id) .done (s.exit pid)
  | replayed {id : SettlementId} {row : SettlementRow} (hrow : s.store.find id = some row)
      (hstatus : replayable row.status = true) (hhub : cfg.hubConfigured = true)
      (hpaused : s.paused = false) :
      Resumes cfg s pid now (.findById id) .done
        (s.spawn pid (.attempt .replay now (startAttempt { row with attempts := 0 }).1
          (startAttempt { row with attempts := 0 }).2))
  | refused {id : SettlementId} {row : SettlementRow} (hrow : s.store.find id = some row)
      (hchecks : ¬ (replayable row.status = true ∧ cfg.hubConfigured = true ∧ s.paused = false)) :
      Resumes cfg s pid now (.findById id) .done (s.exit pid)
  | notRead {id : SettlementId} {error : Failure} :
      Resumes cfg s pid now (.findById id) (.failed error) (s.exit pid)
  -- `processDue`
  | scanned {tick : Time} :
      Resumes cfg s pid now (.findDueRetries tick) .done
        (s.nextDue pid tick (findDueRetries s.store tick cfg.batchSize))
  | notScanned {tick : Time} {error : Failure} :
      Resumes cfg s pid now (.findDueRetries tick) (.failed error) { s.exit pid with running := false }
  | attempted {caller : Caller} {begun : Time} {entity : SettlementRow} {stage : Stage} {reply : Reply}
      {store' : Store} {flow : Flow}
      (hattempt : attemptStep cfg begun entity stage reply s.store = some (store', flow)) :
      Resumes cfg s pid now (.attempt caller begun entity stage) reply
        ({ s with store := store' }.proceed pid caller begun flow)

section Resumes

variable {cfg : Config} {s s' : State} {pid : Pid} {now : Time} {reply : Reply}

theorem resumes_of_resume {p : Process} (hstep : resume cfg s pid now reply p = some s') :
    Resumes cfg s pid now p reply s' := by
  cases p with
  | insert entity =>
      cases reply with
      | done =>
          simp only [resume] at hstep
          split at hstep
          · rename_i hfresh
            split at hstep
            · rename_i hhub
              cases hstep
              exact .inserted hfresh hhub
            · rename_i hhub
              cases hstep
              exact .insertedOnly hfresh (by simpa using hhub)
          · cases hstep
      | failed error =>
          cases hstep
          exact .notInserted
      | gas fee => cases hstep
      | sent hash => cases hstep
  | findById id =>
      cases reply with
      | done =>
          simp only [resume] at hstep
          split at hstep
          · rename_i hrow
            cases hstep
            exact .unknown hrow
          · rename_i row hrow
            split at hstep
            · rename_i hchecks
              cases hstep
              exact .replayed hrow hchecks.1 hchecks.2.1 hchecks.2.2
            · rename_i hchecks
              cases hstep
              exact .refused hrow hchecks
      | failed error =>
          cases hstep
          exact .notRead
      | gas fee => cases hstep
      | sent hash => cases hstep
  | findDueRetries tick =>
      cases reply with
      | done =>
          cases hstep
          exact .scanned
      | failed error =>
          cases hstep
          exact .notScanned
      | gas fee => cases hstep
      | sent hash => cases hstep
  | attempt caller begun entity stage =>
      simp only [resume] at hstep
      split at hstep
      · cases hstep
      · rename_i store' flow hattempt
        cases hstep
        exact .attempted hattempt

end Resumes

/-! ## The process table -/

section Processes

variable (s : State) (pid : Pid) (p : Process)

@[simp] theorem process_spawn_self : (s.spawn pid p).process pid = some p := by
  have hlookup : Table.lookup Prod.fst (Table.put Prod.fst s.processes (pid, p)) pid =
      some (pid, p) := Table.lookup_put_self s.processes (pid, p)
  simp [State.process, State.spawn, hlookup]

theorem process_spawn_of_ne {q : Pid} (h : q ≠ pid) : (s.spawn pid p).process q = s.process q := by
  have hlookup : Table.lookup Prod.fst (Table.put Prod.fst s.processes (pid, p)) q =
      Table.lookup Prod.fst s.processes q :=
    Table.lookup_put_of_ne s.processes (pid, p) (Ne.symm h)
  simp [State.process, State.spawn, hlookup]

@[simp] theorem process_exit_self : (s.exit pid).process pid = none := by
  simp [State.process, State.exit]

theorem process_exit_of_ne {q : Pid} (h : q ≠ pid) : (s.exit pid).process q = s.process q := by
  have hlookup : Table.lookup Prod.fst (Table.drop Prod.fst s.processes pid) q =
      Table.lookup Prod.fst s.processes q := Table.lookup_drop_of_ne (Ne.symm h)
  simp [State.process, State.exit, hlookup]

end Processes

@[simp] theorem nextDue_store (s : State) (pid : Pid) (now : Time) (rest : List SettlementRow) :
    (s.nextDue pid now rest).store = s.store := by
  cases rest with
  | nil => rfl
  | cons row rest => rfl

@[simp] theorem proceed_store (s : State) (pid : Pid) (caller : Caller) (now : Time) (flow : Flow) :
    (s.proceed pid caller now flow).store = s.store := by
  cases flow with
  | await entity stage => rfl
  | returned =>
      cases caller with
      | settleBatch => rfl
      | replay => rfl
      | processDue rest => simp [State.proceed]
  | thrown error =>
      cases caller with
      | settleBatch => rfl
      | replay => rfl
      | processDue rest => rfl

/-- The due settlements a caller still has to do. -/
def Caller.rest : Caller → List SettlementRow
  | .processDue rest => rest
  | _ => []

/-- What a resumed process goes on as, if it goes on, and the store it leaves. -/
inductive Turns (cfg : Config) (s : State) (now : Time) : Process → Reply → Store → Process → Prop
  | inserted {entity : SettlementRow} (hfresh : s.store.find entity.id = none) :
      Turns cfg s now (.insert entity) .done (s.store.save entity)
        (.attempt .settleBatch now (startAttempt entity).1 (startAttempt entity).2)
  | replayed {id : SettlementId} {row : SettlementRow} (hrow : s.store.find id = some row)
      (hstatus : replayable row.status = true) (hhub : cfg.hubConfigured = true)
      (hpaused : s.paused = false) :
      Turns cfg s now (.findById id) .done s.store
        (.attempt .replay now (startAttempt { row with attempts := 0 }).1
          (startAttempt { row with attempts := 0 }).2)
  | scanned {tick : Time} {row : SettlementRow} {rest : List SettlementRow}
      (hdue : findDueRetries s.store tick cfg.batchSize = row :: rest) :
      Turns cfg s now (.findDueRetries tick) .done s.store
        (.attempt (.processDue rest) tick (startAttempt row).1 (startAttempt row).2)
  | awaits {caller : Caller} {begun : Time} {entity next : SettlementRow} {stage stage' : Stage}
      {reply : Reply} {store' : Store}
      (hattempts : Attempts cfg begun entity s.store stage reply store' (.await next stage')) :
      Turns cfg s now (.attempt caller begun entity stage) reply store'
        (.attempt caller begun next stage')
  | nextDue {row : SettlementRow} {rest : List SettlementRow} {begun : Time} {entity : SettlementRow}
      {stage : Stage} {reply : Reply} {store' : Store}
      (hattempts : Attempts cfg begun entity s.store stage reply store' .returned) :
      Turns cfg s now (.attempt (.processDue (row :: rest)) begun entity stage) reply store'
        (.attempt (.processDue rest) begun (startAttempt row).1 (startAttempt row).2)

section Turns

variable {cfg : Config} {s s' : State} {pid : Pid} {now : Time} {reply : Reply} {p p' : Process}

theorem process_nextDue {rest : List SettlementRow} (h : (s.nextDue pid now rest).process pid = some p) :
    ∃ row rest', rest = row :: rest' ∧
      p = .attempt (.processDue rest') now (startAttempt row).1 (startAttempt row).2 := by
  cases rest with
  | nil =>
      have hnone : (s.nextDue pid now []).process pid = none := process_exit_self s pid
      rw [hnone] at h
      cases h
  | cons row rest =>
      have hsome := process_spawn_self s pid
        (.attempt (.processDue rest) now (startAttempt row).1 (startAttempt row).2)
      exact ⟨row, rest, rfl, (Option.some.inj (hsome.symm.trans h)).symm⟩

theorem process_proceed {caller : Caller} {flow : Flow}
    (h : (s.proceed pid caller now flow).process pid = some p) :
    (∃ entity stage, flow = .await entity stage ∧ p = .attempt caller now entity stage) ∨
      flow = .returned ∧ ∃ row rest, caller = .processDue (row :: rest) ∧
        p = .attempt (.processDue rest) now (startAttempt row).1 (startAttempt row).2 := by
  have hexit : (s.exit pid).process pid ≠ some p := by
    rw [process_exit_self]
    exact nofun
  cases flow with
  | await entity stage =>
      have hsome := process_spawn_self s pid (.attempt caller now entity stage)
      exact Or.inl ⟨entity, stage, rfl, (Option.some.inj (hsome.symm.trans h)).symm⟩
  | returned =>
      cases caller with
      | settleBatch => exact absurd h hexit
      | replay => exact absurd h hexit
      | processDue rest =>
          rcases process_nextDue h with ⟨row, rest', rfl, rfl⟩
          exact Or.inr ⟨rfl, row, rest', rfl, rfl⟩
  | thrown error =>
      cases caller with
      | _ => exact absurd h hexit

theorem turns_of_resumes (h : Resumes cfg s pid now p reply s') (hp' : s'.process pid = some p') :
    Turns cfg s now p reply s'.store p' := by
  have hspawn : ∀ t q, (State.spawn t pid q).process pid = some p' → p' = q := by
    intro t q hq
    rw [process_spawn_self] at hq
    exact (Option.some.inj hq).symm
  have hexit : ∀ t, (State.exit t pid).process pid ≠ some p' := by
    intro t
    rw [process_exit_self]
    exact nofun
  cases h with
  | inserted hfresh _ =>
      rw [hspawn _ _ hp']
      exact .inserted hfresh
  | replayed hrow hstatus hhub hpaused =>
      rw [hspawn _ _ hp']
      exact .replayed hrow hstatus hhub hpaused
  | scanned =>
      rcases process_nextDue hp' with ⟨row, rest, hdue, rfl⟩
      rw [nextDue_store]
      exact .scanned hdue
  | attempted hattempt =>
      rw [proceed_store]
      rcases process_proceed hp' with ⟨next, stage', rfl, rfl⟩ | ⟨rfl, row, rest, rfl, rfl⟩
      · exact .awaits (attempts_of_attemptStep hattempt)
      · exact .nextDue (attempts_of_attemptStep hattempt)
  | _ => exact absurd hp' (hexit _)

/-- The other processes wait as before. -/
theorem resumes_others (h : Resumes cfg s pid now p reply s') {q : Pid} (hq : q ≠ pid) :
    s'.process q = s.process q := by
  have hnextDue : ∀ t rest begun, (State.nextDue t pid begun rest).process q = t.process q := by
    intro t rest begun
    cases rest with
    | nil => exact process_exit_of_ne t pid hq
    | cons row rest => exact process_spawn_of_ne t pid _ hq
  cases h with
  | inserted _ _ => exact process_spawn_of_ne _ pid _ hq
  | replayed _ _ _ _ => exact process_spawn_of_ne _ pid _ hq
  | scanned => exact hnextDue s _ _
  | @attempted caller begun entity stage reply store' flow hattempt =>
      cases flow with
      | await next stage' => exact process_spawn_of_ne _ pid _ hq
      | returned =>
          cases caller with
          | processDue rest => exact hnextDue _ rest begun
          | _ => exact process_exit_of_ne _ pid hq
      | thrown error =>
          cases caller with
          | _ => exact process_exit_of_ne _ pid hq
  | _ => exact process_exit_of_ne _ pid hq

end Turns

/-! ## The machine -/

/-- The steps of `step`. -/
inductive Acts (cfg : Config) (s : State) : Action → State → Prop
  | settleBatch {pid : Pid} {id : SettlementId} {input : SettleBatchInput} {entity : SettlementRow}
      (hfree : s.process pid = none) (hpaused : s.paused = false)
      (hentity : newSettlement cfg id input = .ok entity) :
      Acts cfg s (.settleBatch pid id input) (s.spawn pid (.insert entity))
  | processDue {pid : Pid} {now : Time} (hfree : s.process pid = none) (hrunning : s.running = false)
      (hpaused : s.paused = false) :
      Acts cfg s (.processDue pid now) { s.spawn pid (.findDueRetries now) with running := true }
  | replay {pid : Pid} {id : SettlementId} (hfree : s.process pid = none) :
      Acts cfg s (.replay pid id) (s.spawn pid (.findById id))
  | resume {pid : Pid} {now : Time} {reply : Reply} {p : Process} {s' : State}
      (hp : s.process pid = some p) (hresumes : Resumes cfg s pid now p reply s') :
      Acts cfg s (.resume pid now reply) s'
  | evolve {hash : TxHash} {fate : Fate} {tx : Transaction}
      (htx : Table.lookup Transaction.hash s.store.transactions hash = some tx)
      (hbecome : tx.fate.canBecome fate = true) :
      Acts cfg s (.evolve hash fate) { s with store := s.store.broadcast { tx with fate } }
  | setPaused {paused : Bool} : Acts cfg s (.setPaused paused) { s with paused }

theorem acts_of_step {cfg : Config} {a : Action} {s s' : State} (hstep : step cfg a s = some s') :
    Acts cfg s a s' := by
  cases a with
  | settleBatch pid id input =>
      simp only [step] at hstep
      split at hstep
      · rename_i hcall
        split at hstep
        · rename_i entity hentity
          cases hstep
          exact .settleBatch hcall.1 hcall.2 hentity
        · cases hstep
      · cases hstep
  | processDue pid now =>
      simp only [step] at hstep
      split at hstep
      · rename_i hcall
        cases hstep
        exact .processDue hcall.1 hcall.2.1 hcall.2.2
      · cases hstep
  | replay pid id =>
      simp only [step] at hstep
      split at hstep
      · rename_i hfree
        cases hstep
        exact .replay hfree
      · cases hstep
  | resume pid now reply =>
      simp only [step] at hstep
      split at hstep
      · rename_i p hp
        exact .resume hp (resumes_of_resume hstep)
      · cases hstep
  | evolve hash fate =>
      simp only [step] at hstep
      split at hstep
      · rename_i tx htx
        split at hstep
        · rename_i hbecome
          cases hstep
          exact .evolve htx hbecome
        · cases hstep
      · cases hstep
  | setPaused paused =>
      cases hstep
      exact .setPaused

end Settlement
end PaymentRail
