import PaymentRail.Settlement.PaidOnce

/-!
# RetryQueue — the rows between operations, over whole runs

The attempt counter is incremented, decremented and reset on different branches of `attempt` and
`replay`, and status and `nextRetryAt` are written in five places.  Under the condition of
`settlement_paid_once` (operations act on each settlement one after the other, storage works) every
row that nobody holds satisfies `QueueSound`; a settled row stays as it is and is announced once; and
since its creation or its last replay at most `maxAttempts` transactions were broadcast for it.
-/

namespace PaymentRail
namespace Settlement

open Machine Strings Money Fees Collections

/-! ## Rows -/

/-- What the queue promises of a row between operations. -/
structure QueueSound (cfg : Config) (row : SettlementRow) : Prop where
  nextRetryAt : row.nextRetryAt ≠ none ↔ row.status = .retrying
  retrying : row.status = .retrying → row.attempts < cfg.maxAttempts
  deadLetter : row.status = .deadLetter → cfg.maxAttempts ≤ row.attempts
  settled : row.status = .settled →
    row.settledAt ≠ none ∧ row.lastError = none ∧ row.txHash ≠ none
  attempts : row.attempts ≤ cfg.maxAttempts

/-- Columns that are rounded when stored play no part in it. -/
theorem QueueSound.stored {cfg : Config} {row : SettlementRow} (h : QueueSound cfg row) :
    QueueSound cfg row.stored :=
  ⟨h.nextRetryAt, h.retrying, h.deadLetter, h.settled, h.attempts⟩

/-- What an attempt has in memory: an attempt that was counted, or an outcome to be saved. -/
def StageOrderly (cfg : Config) (entity : SettlementRow) : Stage → Prop
  | .savePending => QueueSound cfg entity
  | .accrueFee => QueueSound cfg entity
  | .saveOutcome => QueueSound cfg entity
  | _ => 1 ≤ entity.attempts ∧ entity.attempts ≤ cfg.maxAttempts

def Process.Orderly (cfg : Config) : Process → Prop
  | .insert entity => entity.attempts = 0 ∧ QueueSound cfg entity
  | .attempt caller _ entity stage =>
      StageOrderly cfg entity stage ∧ ∀ row ∈ caller.rest, row.attempts < cfg.maxAttempts
  | _ => True

section Outcomes

variable {cfg : Config} {now : Time} {entity : SettlementRow}

theorem queueSound_recordFailure (hattempts : entity.attempts ≤ cfg.maxAttempts) (error : Failure) :
    QueueSound cfg (recordFailure cfg now entity error) := by
  unfold recordFailure failureOutcome
  split
  · exact ⟨by simp, nofun, nofun, nofun, hattempts⟩
  · split
    · rename_i hlast
      exact ⟨by simp, nofun, fun _ => hlast, nofun, hattempts⟩
    · rename_i hleft
      exact ⟨by simp, fun _ => Nat.lt_of_not_le hleft, nofun, nofun, hattempts⟩

/-- Waiting for a pending transaction gives the attempt back. -/
theorem queueSound_keepWaiting (hcounted : 1 ≤ entity.attempts)
    (hattempts : entity.attempts ≤ cfg.maxAttempts) : QueueSound cfg (keepWaiting cfg now entity) := by
  have hless : entity.attempts - 1 < cfg.maxAttempts := by omega
  exact ⟨by simp [keepWaiting], fun _ => hless, nofun, nofun, Nat.le_of_lt hless⟩

theorem queueSound_markPaid {txs : List Transaction} {depth : Nat}
    (hattempts : entity.attempts ≤ cfg.maxAttempts)
    (hfate : fateOf txs entity.txHash = .mined depth) : QueueSound cfg (markPaid now entity) := by
  have hhash : entity.txHash ≠ none := by
    intro hnone
    rw [hnone] at hfate
    cases hfate
  exact ⟨by simp [markPaid], nofun, nofun, fun _ => ⟨nofun, rfl, hhash⟩, hattempts⟩

theorem startAttempt_orderly (hattempts : entity.attempts < cfg.maxAttempts) :
    StageOrderly cfg (startAttempt entity).1 (startAttempt entity).2 := by
  cases hhash : entity.txHash with
  | none =>
      simp only [startAttempt, hhash]
      exact ⟨Nat.succ_pos _, hattempts⟩
  | some hash =>
      simp only [startAttempt, hhash]
      exact ⟨Nat.succ_pos _, hattempts⟩

/-- A wait inside the try block has a counted attempt in memory. -/
theorem StageOrderly.attempts {stage : Stage} (h : StageOrderly cfg entity stage) :
    entity.attempts ≤ cfg.maxAttempts := by
  cases stage with
  | savePending => exact QueueSound.attempts h
  | accrueFee => exact QueueSound.attempts h
  | saveOutcome => exact QueueSound.attempts h
  | _ => exact h.2

/-- An answer leads from one orderly wait to the next. -/
theorem attempts_orderly {stage stage' : Stage} {reply : Reply} {store store' : Store}
    {next : SettlementRow} (h : StageOrderly cfg entity stage)
    (hattempts : Attempts cfg now entity store stage reply store' (.await next stage')) :
    StageOrderly cfg next stage' := by
  cases hattempts with
  | mined _ => exact h
  | reverted _ => exact h
  | noReceipt => exact h
  | deep hfate _ => exact queueSound_markPaid h.2 hfate
  | shallow _ _ => exact queueSound_keepWaiting h.1 h.2
  | gone _ => exact h
  | inMempool _ => exact queueSound_keepWaiting h.1 h.2
  | gasTooHigh _ => exact queueSound_recordFailure h.2 _
  | badAmount _ => exact queueSound_recordFailure h.2 _
  | gasAccepted _ _ => exact h
  | broadcast _ => exact h
  | hashSaved => exact h
  | confirmed hfate _ => exact queueSound_markPaid h.2 hfate
  | accrued => exact h
  | notAccrued => exact h
  | caught _ _ => exact queueSound_recordFailure h.attempts _

end Outcomes

/-! ## Processes and resting rows -/

/-- The rule for facts about processes and about rows that nobody holds: what a step of one process
does not touch stays. -/
theorem Moves.keeps {s s' : State} {pid : Pid} {touched : List SettlementId}
    (h : Moves s s' pid touched) {P P' : Process → Prop} {R R' : SettlementRow → Prop}
    (hP : ∀ qid q, s.process qid = some q → P q)
    (hR : ∀ id row, s.store.find id = some row → (∀ qid q, s.process qid = some q → id ∉ q.held) →
      R row)
    (hothers : ∀ q, P q → (∀ id ∈ touched, id ∉ q.held) → P' q)
    (hrest : ∀ row, row.id ∉ touched → R row → R' row)
    (hafter : ∀ p, s'.process pid = some p → P' p)
    (hreleased : ∀ id ∈ touched, (∀ p, s'.process pid = some p → id ∉ p.held) →
      ∀ row, s'.store.find id = some row → R' row) :
    (∀ qid q, s'.process qid = some q → P' q) ∧
      ∀ id row, s'.store.find id = some row →
        (∀ qid q, s'.process qid = some q → id ∉ q.held) → R' row := by
  constructor
  · intro qid q hq
    by_cases hpid : qid = pid
    · subst hpid
      exact hafter q hq
    · rw [h.others qid hpid] at hq
      exact hothers q (hP qid q hq) (h.alone qid q hpid hq)
  · intro id row hrow hfree
    by_cases htouched : id ∈ touched
    · exact hreleased id htouched (fun p hp => hfree pid p hp) row hrow
    · rw [(h.frame id htouched).1] at hrow
      have hid : row.id = id := Table.key_of_lookup hrow
      refine hrest row (by rw [hid]; exact htouched) (hR id row hrow ?_)
      intro qid q hq hheld
      by_cases hpid : qid = pid
      · subst hpid
        exact htouched (h.before q hq id hheld)
      · exact hfree qid q (by rw [h.others qid hpid]; exact hq) hheld

/-- The queue in order: no process can spoil it, and the rows nobody holds are as promised. -/
structure QueueOk (cfg : Config) (s : State) : Prop where
  processes : ∀ pid p, s.process pid = some p → p.Orderly cfg
  resting : ∀ id row, s.store.find id = some row →
    (∀ pid p, s.process pid = some p → id ∉ p.held) → QueueSound cfg row

section Queue

variable {cfg : Config} {s s' : State} {pid : Pid} {now : Time} {reply : Reply} {p p' : Process}

/-- The rows a tick has read were at rest. -/
theorem QueueOk.attempts_of_due (hqueue : QueueOk cfg s) (hinv : Invariant s) {tick : Time}
    (hp : s.process pid = some (.findDueRetries tick)) {row : SettlementRow}
    (hdue : row ∈ findDueRetries s.store tick cfg.batchSize) : row.attempts < cfg.maxAttempts := by
  rcases mem_findDueRetries hdue with ⟨hmem, hstatus⟩
  have hrow : s.store.find row.id = some row := Table.lookup_of_mem hinv.store.rows hmem
  have hfree := (findDueRetries_free hinv hp hdue).1
  exact (hqueue.resting row.id row hrow hfree).retrying hstatus

theorem held_attempt (caller : Caller) (begun : Time) (entity : SettlementRow) (stage : Stage) :
    (Process.attempt caller begun entity stage).held = entity.id :: caller.rest.map (·.id) := by
  cases caller with
  | _ => rfl

/-- A process gives up a settlement only when it has saved what it has in memory, as a pending wait
or as an outcome. -/
theorem released_saved (hresumes : Resumes cfg s pid now p reply s')
    (hp : s.process pid = some p) (hok : storageFailure (.resume pid now reply) s = false)
    {id : SettlementId} (hheld : id ∈ p.held)
    (hgone : ∀ p', s'.process pid = some p' → id ∉ p'.held) :
    ∃ caller begun entity stage, p = .attempt caller begun entity stage ∧ id = entity.id ∧
      (stage = .savePending ∨ stage = .saveOutcome) ∧
      s'.store.settlements = (s.store.save entity).settlements ∧
      s'.store.transactions = s.store.transactions := by
  cases hresumes with
  | @attempted caller begun entity stage reply store' flow hattempt =>
      rw [held_attempt] at hheld
      cases flow with
      | await next stage' =>
          have hid := attempts_id (attempts_of_attemptStep hattempt)
          refine absurd ?_ (hgone _ (process_spawn_self _ _ _))
          rw [held_attempt, hid]
          exact hheld
      | returned =>
          have hmine : id = entity.id := by
            rcases List.mem_cons.1 hheld with hid | hrest
            · exact hid
            -- the rest of a tick is still held by the attempt that comes next
            · cases caller with
              | settleBatch => cases hrest
              | replay => cases hrest
              | processDue rest =>
                  cases rest with
                  | nil => cases hrest
                  | cons row rest =>
                      refine absurd ?_ (hgone _ (process_spawn_self _ _ _))
                      rw [held_attempt, startAttempt_id]
                      exact hrest
          refine ⟨caller, begun, entity, stage, rfl, hmine, ?_⟩
          cases attempts_of_attemptStep hattempt with
          | pendingSaved => exact ⟨Or.inl rfl, by simp, by simp [Store.save]⟩
          | outcomeSaved =>
              rcases emitOutcome_fields (s.store.save entity) entity with ⟨hrows, htxs⟩
              exact ⟨Or.inr rfl, by simpa using hrows, by rw [proceed_store]; exact htxs⟩
      | thrown error =>
          cases attempts_of_attemptStep hattempt with
          | outcomeLost =>
              simp only [storageFailure, hp] at hok
              cases hok
  | _ => cases hheld

theorem turns_orderly (hqueue : QueueOk cfg s) (hinv : Invariant s) (hmax : 1 ≤ cfg.maxAttempts)
    (hp : s.process pid = some p) {store' : Store} (hturns : Turns cfg s now p reply store' p') :
    p'.Orderly cfg := by
  have horderly := hqueue.processes pid p hp
  cases hturns with
  | @inserted entity _ =>
      refine ⟨startAttempt_orderly ?_, fun _ hr => absurd hr List.not_mem_nil⟩
      rw [horderly.1]
      exact hmax
  | replayed _ _ _ _ =>
      exact ⟨startAttempt_orderly hmax, fun _ hr => absurd hr List.not_mem_nil⟩
  | @scanned tick row rest hdue =>
      have hrows : ∀ r ∈ row :: rest, r.attempts < cfg.maxAttempts := by
        intro r hr
        rw [← hdue] at hr
        exact hqueue.attempts_of_due hinv hp hr
      exact ⟨startAttempt_orderly (hrows row List.mem_cons_self),
        fun r hr => hrows r (List.mem_cons_of_mem _ hr)⟩
  | awaits hattempts => exact ⟨attempts_orderly horderly.1 hattempts, horderly.2⟩
  | @nextDue row rest _ _ _ _ _ _ =>
      exact ⟨startAttempt_orderly (horderly.2 row List.mem_cons_self),
        fun r hr => horderly.2 r (List.mem_cons_of_mem _ hr)⟩

theorem resumes_queueOk (hqueue : QueueOk cfg s) (hinv : Invariant s) (hmax : 1 ≤ cfg.maxAttempts)
    (hp : s.process pid = some p) (hok : NoSecondReplay (.resume pid now reply) s)
    (hresumes : Resumes cfg s pid now p reply s') : QueueOk cfg s' := by
  rcases resumes_moves hinv hp hok hresumes with ⟨touched, hmoves, haccounted⟩
  have hkept := hmoves.keeps hqueue.processes hqueue.resting (fun _ hq _ => hq) (fun _ _ hR => hR)
    (fun p' hp' => turns_orderly hqueue hinv hmax hp (turns_of_resumes hresumes hp')) ?_
  · exact ⟨hkept.1, hkept.2⟩
  · intro id hid hgone row hrow
    rcases haccounted id hid with hheld | ⟨p', hp', hheld⟩ | ⟨entity, rfl, rfl, _, hstore⟩
    · rcases released_saved hresumes hp hok.1 hheld hgone with
        ⟨caller, begun, entity, stage, rfl, rfl, hstage, hrows, _⟩
      have hfound : s'.store.find entity.id = some entity.stored := by
        rw [Store.find, hrows]
        exact find_save_self s.store entity
      rw [hfound] at hrow
      cases hrow
      have horderly := (hqueue.processes pid _ hp).1
      rcases hstage with rfl | rfl
      · exact QueueSound.stored horderly
      · exact QueueSound.stored horderly
    · exact absurd hheld (hgone p' hp')
    · rw [hstore, find_save_self] at hrow
      cases hrow
      exact (hqueue.processes pid _ hp).2.stored

theorem QueueOk.spawn (hqueue : QueueOk cfg s) (hfree : s.process pid = none)
    (horderly : p.Orderly cfg) : QueueOk cfg (s.spawn pid p) where
  processes := by
    intro qid q hq
    by_cases hpid : qid = pid
    · subst hpid
      rw [process_spawn_self] at hq
      cases hq
      exact horderly
    · rw [process_spawn_of_ne s pid p hpid] at hq
      exact hqueue.processes qid q hq
  resting := by
    intro id row hrow hnobody
    refine hqueue.resting id row hrow ?_
    intro qid q hq
    have hpid : qid ≠ pid := by
      rintro rfl
      rw [hfree] at hq
      cases hq
    exact hnobody qid q (by rw [process_spawn_of_ne s pid p hpid]; exact hq)

theorem newSettlement_orderly {id : SettlementId} {input : SettleBatchInput} {entity : SettlementRow}
    (h : newSettlement cfg id input = .ok entity) : (Process.insert entity).Orderly cfg := by
  simp only [newSettlement, bind_eq_ok, pure_eq_ok] at h
  rcases h with ⟨quoted, _, rfl⟩
  exact ⟨rfl, ⟨by simp, nofun, nofun, nofun, Nat.zero_le _⟩⟩

theorem step_queueOk {a : Action} (hqueue : QueueOk cfg s) (hinv : Invariant s)
    (hmax : 1 ≤ cfg.maxAttempts) (hok : NoSecondReplay a s) (hstep : step cfg a s = some s') :
    QueueOk cfg s' := by
  cases acts_of_step hstep with
  | settleBatch hfree _ hentity => exact hqueue.spawn hfree (newSettlement_orderly hentity)
  | @processDue pid now hfree _ _ =>
      have hspawned : QueueOk cfg (s.spawn pid (.findDueRetries now)) := hqueue.spawn hfree trivial
      exact ⟨hspawned.processes, hspawned.resting⟩
  | replay hfree => exact hqueue.spawn hfree trivial
  | resume hp hresumes => exact resumes_queueOk hqueue hinv hmax hp hok hresumes
  | evolve _ _ => exact ⟨hqueue.processes, hqueue.resting⟩
  | setPaused => exact ⟨hqueue.processes, hqueue.resting⟩

end Queue

/-! ## Settled rows -/

/-- What has been announced: a settled row stays settled, and nothing follows its announcement. -/
structure Announced (store : Store) : Prop where
  settled : ∀ id, (WebhookEvent.settlementSettled, id) ∈ store.emitted →
    ∃ row, store.find id = some row ∧ row.status = .settled
  last : store.emitted.Pairwise
    fun later earlier => earlier.1 = .settlementSettled → later.2 ≠ earlier.2

section Settled

variable {cfg : Config} {s s' : State} {pid : Pid} {now : Time} {reply : Reply} {p : Process}

/-- Nobody works on a settled row. -/
theorem Invariant.not_held_of_settled (hinv : Invariant s) {id : SettlementId} {row : SettlementRow}
    (hrow : s.store.find id = some row) (hsettled : row.status = .settled) (hp : s.process pid = some p) :
    id ∉ p.held := by
  intro hheld
  rcases (hinv.processes pid p hp).stored hheld with ⟨row', hrow', hcases⟩
  rw [hrow] at hrow'
  cases hrow'
  rcases hcases with ⟨_, hretrying⟩ | ⟨_, hpending⟩ | ⟨_, hreplay, _⟩
  · rw [hsettled] at hretrying
    cases hretrying
  · rw [hsettled] at hpending
    cases hpending
  · simp [replayable, hsettled] at hreplay

/-- An attempt writes no row but the one it has in memory. -/
theorem attempts_settlements {begun : Time} {entity : SettlementRow} {stage : Stage}
    {store store' : Store} {flow : Flow} (h : Attempts cfg begun entity store stage reply store' flow) :
    store'.settlements = store.settlements ∨
      store'.settlements = (store.save entity).settlements ∧ reply = .done ∧
        (stage = .savePending ∨ stage = .saveHash ∨ stage = .saveOutcome) := by
  cases h with
  | pendingSaved => exact Or.inr ⟨rfl, rfl, Or.inl rfl⟩
  | hashSaved => exact Or.inr ⟨rfl, rfl, Or.inr (Or.inl rfl)⟩
  | accrued => exact Or.inl (accrue_fields store entity).1
  | outcomeSaved =>
      exact Or.inr ⟨(emitOutcome_fields (store.save entity) entity).1, rfl, Or.inr (Or.inr rfl)⟩
  | _ => exact Or.inl rfl

theorem find_congr {store store' : Store} (h : store'.settlements = store.settlements)
    (id : SettlementId) : store'.find id = store.find id := by
  rw [Store.find, h]
  rfl

theorem attempts_find {begun : Time} {entity : SettlementRow} {stage : Stage} {store store' : Store}
    {flow : Flow} (h : Attempts cfg begun entity store stage reply store' flow) {id : SettlementId}
    (hid : id ≠ entity.id) : store'.find id = store.find id := by
  rcases attempts_settlements h with hsame | ⟨hsaved, _⟩
  · exact find_congr hsame id
  · exact (find_congr hsaved id).trans (find_save_of_ne hid)

theorem resumes_find_settled (hinv : Invariant s) (hp : s.process pid = some p)
    (hresumes : Resumes cfg s pid now p reply s') {id : SettlementId} {row : SettlementRow}
    (hrow : s.store.find id = some row) (hsettled : row.status = .settled) :
    s'.store.find id = some row := by
  have hnew : ∀ entity : SettlementRow, s.store.find entity.id = none → id ≠ entity.id := by
    rintro entity hfresh rfl
    rw [hfresh] at hrow
    cases hrow
  cases hresumes with
  | inserted hfresh _ => exact (find_save_of_ne (hnew _ hfresh)).trans hrow
  | insertedOnly hfresh _ => exact (find_save_of_ne (hnew _ hfresh)).trans hrow
  | scanned => simpa using hrow
  | @attempted caller begun entity stage reply store' flow hattempt =>
      have hid : id ≠ entity.id := by
        rintro rfl
        refine hinv.not_held_of_settled hrow hsettled hp ?_
        rw [held_attempt]
        exact List.mem_cons_self
      rw [proceed_store]
      exact (attempts_find (attempts_of_attemptStep hattempt) hid).trans hrow
  | _ => exact hrow

/-- A settled row never changes again. -/
theorem step_find_settled {a : Action} (hinv : Invariant s) (hstep : step cfg a s = some s')
    {id : SettlementId} {row : SettlementRow} (hrow : s.store.find id = some row)
    (hsettled : row.status = .settled) : s'.store.find id = some row := by
  cases acts_of_step hstep with
  | resume hp hresumes => exact resumes_find_settled hinv hp hresumes hrow hsettled
  | _ => exact hrow

theorem attempts_emitted {begun : Time} {entity : SettlementRow} {stage : Stage} {store store' : Store}
    {flow : Flow} (h : Attempts cfg begun entity store stage reply store' flow) :
    store'.emitted = store.emitted ∨ store' = (store.save entity).emitOutcome entity := by
  cases h with
  | accrued =>
      refine Or.inl ?_
      unfold Store.accrue
      split
      · rfl
      · split
        · rfl
        · split
          · rfl
          · rfl
  | outcomeSaved => exact Or.inr rfl
  | _ => exact Or.inl rfl

/-- An outcome that is saved is announced as what it is. -/
theorem emitted_emitOutcome (store : Store) (entity : SettlementRow) :
    (store.emitOutcome entity).emitted = store.emitted ∨
      ∃ event, (store.emitOutcome entity).emitted = (event, entity.id) :: store.emitted ∧
        (event = .settlementSettled → entity.status = .settled) := by
  cases hstatus : entity.status with
  | settled => exact Or.inr ⟨.settlementSettled, by simp [Store.emitOutcome, hstatus], fun _ => rfl⟩
  | rejected => exact Or.inr ⟨.settlementFailed, by simp [Store.emitOutcome, hstatus], nofun⟩
  | deadLetter => exact Or.inr ⟨.settlementFailed, by simp [Store.emitOutcome, hstatus], nofun⟩
  | pending => exact Or.inl (by simp [Store.emitOutcome, hstatus])
  | retrying => exact Or.inl (by simp [Store.emitOutcome, hstatus])

theorem resumes_emitted (hresumes : Resumes cfg s pid now p reply s') :
    s'.store.emitted = s.store.emitted ∨ ∃ caller begun entity stage,
      p = .attempt caller begun entity stage ∧
        s'.store = (s.store.save entity).emitOutcome entity := by
  cases hresumes with
  | scanned => exact Or.inl (by simp)
  | @attempted caller begun entity stage reply store' flow hattempt =>
      rcases attempts_emitted (attempts_of_attemptStep hattempt) with hsame | hsaved
      · exact Or.inl (by simpa using hsame)
      · exact Or.inr ⟨caller, begun, entity, stage, rfl, by simpa using hsaved⟩
  | _ => exact Or.inl rfl

theorem step_announced {a : Action} (h : Announced s.store) (hinv : Invariant s)
    (hstep : step cfg a s = some s') : Announced s'.store := by
  have hkept : ∀ id, (WebhookEvent.settlementSettled, id) ∈ s.store.emitted →
      ∃ row, s'.store.find id = some row ∧ row.status = .settled := by
    intro id hid
    rcases h.settled id hid with ⟨row, hrow, hsettled⟩
    exact ⟨row, step_find_settled hinv hstep hrow hsettled, hsettled⟩
  have hquiet : s'.store.emitted = s.store.emitted → Announced s'.store := by
    intro hsame
    constructor
    · rw [hsame]
      exact hkept
    · rw [hsame]
      exact h.last
  cases acts_of_step hstep with
  | @resume pid _ _ p _ hp hresumes =>
      rcases resumes_emitted hresumes with hsame | ⟨caller, begun, entity, stage, rfl, hstore⟩
      · exact hquiet hsame
      · rcases emitted_emitOutcome (s.store.save entity) entity with hsame | ⟨event, hnew, hevent⟩
        · exact hquiet (by rw [hstore]; exact hsame)
        · have hemitted : s'.store.emitted = (event, entity.id) :: s.store.emitted := by
            rw [hstore]
            exact hnew
          constructor
          · intro id hid
            rw [hemitted] at hid
            rcases List.mem_cons.1 hid with hEq | hold
            · cases hEq
              refine ⟨entity.stored, ?_, hevent rfl⟩
              rw [hstore, Store.find, (emitOutcome_fields (s.store.save entity) entity).1]
              exact find_save_self s.store entity
            · exact hkept id hold
          · rw [hemitted, List.pairwise_cons]
            refine ⟨?_, h.last⟩
            -- the row was being worked on, so it had not been announced as settled
            rintro ⟨_, id⟩ hold rfl hid
            rcases h.settled id hold with ⟨row, hrow, hsettled⟩
            have hmine : entity.id = id := hid
            refine hinv.not_held_of_settled hrow hsettled hp ?_
            rw [held_attempt, hmine]
            exact List.mem_cons_self
  | _ => exact hquiet rfl

end Settled

/-! ## Transactions between two replays -/

/-- The number of transactions broadcast for a settlement. -/
def sentFor (store : Store) (id : SettlementId) : Nat :=
  (store.transactions.map fun tx => if tx.settlementId = id then 1 else 0).sum

/-- The attempt has been counted, and may still broadcast. -/
def Stage.unsent : Stage → Nat
  | .getTransactionReceipt => 1
  | .confirmations => 1
  | .getTransaction => 1
  | .assertGasWithinCap => 1
  | .sendTransaction _ => 1
  | _ => 0

/-- With `n` transactions sent for `id` the attempts counted from `base` on are not exceeded. -/
def Process.Within (id : SettlementId) (base n : Nat) : Process → Prop
  | .attempt caller _ entity stage =>
      (entity.id = id → n + stage.unsent ≤ base + entity.attempts) ∧
        ∀ row ∈ caller.rest, row.id = id → n ≤ base + row.attempts
  | _ => True

structure SentWithin (id : SettlementId) (base : Nat) (s : State) : Prop where
  processes : ∀ pid p, s.process pid = some p → p.Within id base (sentFor s.store id)
  resting : ∀ k row, s.store.find k = some row → (∀ pid p, s.process pid = some p → k ∉ p.held) →
    row.id = id → sentFor s.store id ≤ base + row.attempts

/-- The settlement being attempted is not queued behind itself. -/
theorem Invariant.ne_of_rest {s : State} (hinv : Invariant s) {pid : Pid} {caller : Caller}
    {begun : Time} {entity row : SettlementRow} {stage : Stage}
    (hp : s.process pid = some (.attempt caller begun entity stage)) (hrow : row ∈ caller.rest) :
    entity.id ≠ row.id := by
  cases caller with
  | settleBatch => cases hrow
  | replay => cases hrow
  | processDue rest =>
      have hnodup := (hinv.processes pid _ hp).2.2
      intro hid
      exact (List.nodup_cons.1 hnodup).1 (List.mem_map.2 ⟨row, hrow, hid.symm⟩)

section Sent

variable {cfg : Config} {s s' : State} {pid : Pid} {now : Time} {reply : Reply} {p p' : Process}
  {id : SettlementId} {base : Nat}

theorem sentFor_broadcast {store : Store} (hstore : StoreSound store) (tx : Transaction)
    (id : SettlementId)
    (hfresh : Table.lookup Transaction.hash store.transactions tx.hash = none) :
    sentFor (store.broadcast tx) id = sentFor store id + if tx.settlementId = id then 1 else 0 := by
  have hsum := Table.sum_put_add (fun tx : Transaction => if tx.settlementId = id then 1 else 0)
    hstore.hashes tx
  rw [hfresh] at hsum
  exact hsum

/-- A transaction that moves on is not a new one. -/
theorem sentFor_evolve {store : Store} {tx : Transaction} (hstore : StoreSound store) {fate : Fate}
    {hash : TxHash} (htx : Table.lookup Transaction.hash store.transactions hash = some tx) :
    sentFor (store.broadcast { tx with fate }) id = sentFor store id := by
  have hhash : tx.hash = hash := Table.key_of_lookup htx
  subst hhash
  have hold : Table.lookup Transaction.hash store.transactions { tx with fate }.hash = some tx := htx
  have hsum := Table.sum_put_add (fun tx : Transaction => if tx.settlementId = id then 1 else 0)
    hstore.hashes { tx with fate }
  rw [hold] at hsum
  exact Nat.add_right_cancel hsum

theorem sentFor_congr {store store' : Store} (h : store'.transactions = store.transactions) :
    sentFor store' id = sentFor store id := by
  rw [sentFor, h]
  rfl

theorem sentFor_of_unknown {store : Store} (hstore : StoreSound store)
    (hfresh : store.find id = none) : sentFor store id = 0 := by
  apply List.sum_eq_zero
  intro n hn
  rcases List.mem_map.1 hn with ⟨tx, htx, rfl⟩
  refine if_neg ?_
  intro hid
  rcases hstore.parents tx htx with ⟨row, hrow⟩
  rw [hid, hfresh] at hrow
  cases hrow

/-- Only the attempt on a settlement sends for it. -/
theorem attempts_sentFor (id : SettlementId) {begun : Time} {entity : SettlementRow} {stage : Stage}
    {store store' : Store} {flow : Flow} (hstore : StoreSound store)
    (h : Attempts cfg begun entity store stage reply store' flow) :
    sentFor store' id = sentFor store id ∨
      entity.id = id ∧ (∃ amountWei, stage = .sendTransaction amountWei) ∧
        sentFor store' id = sentFor store id + 1 := by
  cases h with
  | @broadcast amountWei hash hfresh =>
      have hsent := sentFor_broadcast hstore
        { hash, settlementId := entity.id, amountWei, fate := .pending } id hfresh
      by_cases hid : entity.id = id
      · rw [if_pos hid] at hsent
        exact Or.inr ⟨hid, ⟨amountWei, rfl⟩, hsent⟩
      · rw [if_neg hid] at hsent
        exact Or.inl hsent
  | accrued => exact Or.inl (sentFor_congr (accrue_fields store entity).2)
  | outcomeSaved => exact Or.inl (sentFor_congr (emitOutcome_fields (store.save entity) entity).2)
  | _ => exact Or.inl rfl

theorem resumes_sentFor (hinv : Invariant s) (hresumes : Resumes cfg s pid now p reply s') :
    sentFor s'.store id = sentFor s.store id ∨ id ∈ p.held := by
  cases hresumes with
  | scanned => exact Or.inl (by simp)
  | @attempted caller begun entity stage reply store' flow hattempt =>
      rcases attempts_sentFor id hinv.store (attempts_of_attemptStep hattempt) with
        hsame | ⟨hid, _, _⟩
      · exact Or.inl (by rw [proceed_store]; exact hsame)
      · refine Or.inr ?_
        rw [held_attempt, hid]
        exact List.mem_cons_self
  | _ => exact Or.inl rfl

theorem startAttempt_within {row : SettlementRow} {n : Nat} (h : n ≤ base + row.attempts) :
    n + (startAttempt row).2.unsent ≤ base + (startAttempt row).1.attempts := by
  cases hhash : row.txHash with
  | none =>
      simp only [startAttempt, hhash]
      exact Nat.succ_le_succ h
  | some hash =>
      simp only [startAttempt, hhash]
      exact Nat.succ_le_succ h

/-- A replay of the settlement is let through. -/
def replayBegins (cfg : Config) (id : SettlementId) (a : Action) (s : State) : Bool :=
  match a with
  | .resume pid _ .done =>
      match s.process pid with
      | some (.findById k) =>
          k = id && ((s.store.find id).any (fun row => replayable row.status) &&
            (cfg.hubConfigured && !s.paused))
      | _ => false
  | _ => false

theorem attempts_within {begun : Time} {entity next : SettlementRow} {stage stage' : Stage}
    {store store' : Store} (hstore : StoreSound store)
    (h : entity.id = id → sentFor store id + stage.unsent ≤ base + entity.attempts)
    (hattempts : Attempts cfg begun entity store stage reply store' (.await next stage'))
    (hid : next.id = id) : sentFor store' id + stage'.unsent ≤ base + next.attempts := by
  have hmine : entity.id = id := (attempts_id hattempts).symm.trans hid
  have hbefore := h hmine
  cases hattempts with
  | mined _ => exact hbefore
  | reverted _ => exact hbefore
  | noReceipt => exact hbefore
  | deep _ _ => exact Nat.le_of_succ_le hbefore
  | shallow _ _ =>
      -- nothing was sent, so the attempt that is given back is not needed
      have hback : sentFor store id + 1 ≤ base + entity.attempts := hbefore
      show sentFor store id + 0 ≤ base + (entity.attempts - 1)
      omega
  | gone _ => exact hbefore
  | inMempool _ =>
      have hback : sentFor store id + 1 ≤ base + entity.attempts := hbefore
      show sentFor store id + 0 ≤ base + (entity.attempts - 1)
      omega
  | gasTooHigh _ => exact Nat.le_of_succ_le hbefore
  | badAmount _ => exact Nat.le_of_succ_le hbefore
  | gasAccepted _ _ => exact hbefore
  | @broadcast amountWei hash hfresh =>
      have hsent := sentFor_broadcast hstore
        { hash, settlementId := entity.id, amountWei, fate := .pending } id hfresh
      rw [if_pos hmine] at hsent
      rw [hsent]
      exact hbefore
  | hashSaved => exact hbefore
  | confirmed _ _ => exact hbefore
  | accrued =>
      rw [sentFor_congr (accrue_fields store entity).2]
      exact hbefore
  | notAccrued => exact hbefore
  | caught _ _ =>
      show sentFor store id + 0 ≤ base + entity.attempts
      omega

theorem turns_within {store' : Store} (hsent : SentWithin id base s) (hinv : Invariant s)
    (hp : s.process pid = some p) (hno : replayBegins cfg id (.resume pid now reply) s = false)
    (hturns : Turns cfg s now p reply store' p') : p'.Within id base (sentFor store' id) := by
  have hwithin := hsent.processes pid p hp
  cases hturns with
  | @inserted entity hfresh =>
      refine ⟨?_, fun _ hr => absurd hr List.not_mem_nil⟩
      intro hid
      rw [startAttempt_id] at hid
      subst hid
      have hnone : sentFor s.store entity.id = 0 := sentFor_of_unknown hinv.store hfresh
      apply startAttempt_within
      calc sentFor (s.store.save entity) entity.id
          = 0 := hnone
        _ ≤ base + entity.attempts := Nat.zero_le _
  | @replayed k row hrow hstatus hhub hpaused =>
      refine ⟨?_, fun _ hr => absurd hr List.not_mem_nil⟩
      intro hid
      rw [startAttempt_id] at hid
      have hkey : row.id = k := Table.key_of_lookup hrow
      have hk : k = id := hkey.symm.trans hid
      subst hk
      simp [replayBegins, hp, hrow, hstatus, hhub, hpaused] at hno
  | @scanned tick row rest hdue =>
      have hrows : ∀ r ∈ row :: rest, r.id = id → sentFor s.store id ≤ base + r.attempts := by
        intro r hr
        rw [← hdue] at hr
        have hstored := Table.lookup_of_mem hinv.store.rows (mem_findDueRetries hr).1
        exact hsent.resting r.id r hstored (findDueRetries_free hinv hp hr).1
      refine ⟨?_, fun r hr => hrows r (List.mem_cons_of_mem _ hr)⟩
      intro hid
      rw [startAttempt_id] at hid
      exact startAttempt_within (hrows row List.mem_cons_self hid)
  | @awaits caller begun entity next stage stage' _ _ hattempts =>
      refine ⟨attempts_within hinv.store hwithin.1 hattempts, ?_⟩
      intro r hr hid
      -- a settlement still queued is not the one that may have been sent
      have hsame : sentFor store' id = sentFor s.store id := by
        rcases attempts_sentFor id hinv.store hattempts with hsame | ⟨hmine, _, _⟩
        · exact hsame
        · exact absurd (hmine.trans hid.symm) (hinv.ne_of_rest hp hr)
      rw [hsame]
      exact hwithin.2 r hr hid
  | @nextDue row rest begun entity stage _ _ hattempts =>
      have hsame : sentFor store' id = sentFor s.store id := by
        rcases attempts_sentFor id hinv.store hattempts with hsame | ⟨_, ⟨amountWei, rfl⟩, _⟩
        · exact hsame
        · cases hattempts
      rw [hsame]
      refine ⟨?_, fun r hr => hwithin.2 r (List.mem_cons_of_mem _ hr)⟩
      intro hid
      rw [startAttempt_id] at hid
      exact startAttempt_within (hwithin.2 row List.mem_cons_self hid)

theorem resumes_sentWithin (hsent : SentWithin id base s) (hinv : Invariant s)
    (hp : s.process pid = some p) (hok : NoSecondReplay (.resume pid now reply) s)
    (hno : replayBegins cfg id (.resume pid now reply) s = false)
    (hresumes : Resumes cfg s pid now p reply s') : SentWithin id base s' := by
  rcases resumes_moves hinv hp hok hresumes with ⟨touched, hmoves, haccounted⟩
  have hsame : id ∉ touched → sentFor s'.store id = sentFor s.store id := by
    intro hid
    rcases resumes_sentFor hinv hresumes with hsame | hheld
    · exact hsame
    · exact absurd (hmoves.before p hp id hheld) hid
  suffices hkept : (∀ qid q, s'.process qid = some q → q.Within id base (sentFor s'.store id)) ∧
      ∀ k row, s'.store.find k = some row → (∀ qid q, s'.process qid = some q → k ∉ q.held) →
        row.id = id → sentFor s'.store id ≤ base + row.attempts from ⟨hkept.1, hkept.2⟩
  refine hmoves.keeps hsent.processes hsent.resting ?_ ?_
    (fun p' hp' => turns_within hsent hinv hp hno (turns_of_resumes hresumes hp')) ?_
  -- whoever does not hold what was touched is not concerned
  · intro q hq hothers
    cases q with
    | attempt caller begun entity stage =>
        rw [held_attempt] at hothers
        refine ⟨?_, ?_⟩
        · intro hid
          have hnot : id ∉ touched := fun htouched => hothers id htouched (by rw [hid]; exact List.mem_cons_self)
          rw [hsame hnot]
          exact hq.1 hid
        · intro r hr hid
          have hnot : id ∉ touched := fun htouched => hothers id htouched
            (List.mem_cons_of_mem _ (List.mem_map.2 ⟨r, hr, hid⟩))
          rw [hsame hnot]
          exact hq.2 r hr hid
    | _ => trivial
  · intro row hnot hrow hid
    rw [hid] at hnot
    rw [hsame hnot]
    exact hrow hid
  · intro k hk hgone row hrow hid
    rcases haccounted k hk with hheld | ⟨p', hp', hheld⟩ | ⟨entity, rfl, rfl, hfresh, hstore⟩
    · rcases released_saved hresumes hp hok.1 hheld hgone with
        ⟨caller, begun, entity, stage, rfl, rfl, hstage, hrows, htxs⟩
      have hfound : s'.store.find entity.id = some entity.stored := by
        rw [Store.find, hrows]
        exact find_save_self s.store entity
      rw [hfound] at hrow
      cases hrow
      have hwithin := (hsent.processes pid _ hp).1 hid
      rw [sentFor_congr htxs]
      exact Nat.le_of_add_right_le hwithin
    · exact absurd hheld (hgone p' hp')
    · have hkey : row.id = entity.id := Table.key_of_lookup hrow
      have hmine : entity.id = id := hkey.symm.trans hid
      have hnone : sentFor s.store id = 0 := sentFor_of_unknown hinv.store (by rw [← hmine]; exact hfresh)
      calc sentFor s'.store id
          = sentFor s.store id := sentFor_congr (by rw [hstore]; rfl)
        _ = 0 := hnone
        _ ≤ base + row.attempts := Nat.zero_le _

theorem SentWithin.spawn (hsent : SentWithin id base s) (hfree : s.process pid = none)
    (hwithin : p.Within id base (sentFor s.store id)) : SentWithin id base (s.spawn pid p) := by
  constructor
  · intro qid q hq
    by_cases hpid : qid = pid
    · subst hpid
      rw [process_spawn_self] at hq
      cases hq
      exact hwithin
    · rw [process_spawn_of_ne s pid p hpid] at hq
      exact hsent.processes qid q hq
  · intro k row hrow hnobody
    refine hsent.resting k row hrow ?_
    intro qid q hq
    have hpid : qid ≠ pid := by
      rintro rfl
      rw [hfree] at hq
      cases hq
    exact hnobody qid q (by rw [process_spawn_of_ne s pid p hpid]; exact hq)

theorem step_sentWithin {a : Action} (hsent : SentWithin id base s) (hinv : Invariant s)
    (hok : NoSecondReplay a s) (hno : replayBegins cfg id a s = false)
    (hstep : step cfg a s = some s') : SentWithin id base s' := by
  cases acts_of_step hstep with
  | settleBatch hfree _ _ => exact hsent.spawn hfree trivial
  | @processDue pid now hfree _ _ =>
      have hspawned : SentWithin id base (s.spawn pid (.findDueRetries now)) := hsent.spawn hfree trivial
      exact ⟨hspawned.processes, hspawned.resting⟩
  | replay hfree => exact hsent.spawn hfree trivial
  | resume hp hresumes => exact resumes_sentWithin hsent hinv hp hok hno hresumes
  | @evolve hash fate tx htx _ =>
      have hsame : sentFor (s.store.broadcast { tx with fate }) id = sentFor s.store id :=
        sentFor_evolve hinv.store htx
      constructor
      · intro qid q hq
        rw [hsame]
        exact hsent.processes qid q hq
      · intro k row hrow hnobody hid
        rw [hsame]
        exact hsent.resting k row hrow hnobody hid
  | setPaused => exact ⟨hsent.processes, hsent.resting⟩

/-- At any time the transactions sent so far are a base from which to count. -/
theorem sentWithin_start (hqueue : QueueOk cfg s) (id : SettlementId) :
    SentWithin id (sentFor s.store id) s := by
  constructor
  · intro pid p hp
    cases p with
    | attempt caller begun entity stage =>
        refine ⟨fun _ => Nat.add_le_add_left ?_ _, fun _ _ _ => Nat.le_add_right _ _⟩
        have horderly := (hqueue.processes pid _ hp).1
        cases stage with
        | getTransactionReceipt => exact horderly.1
        | confirmations => exact horderly.1
        | getTransaction => exact horderly.1
        | assertGasWithinCap => exact horderly.1
        | sendTransaction amountWei => exact horderly.1
        | _ => exact Nat.zero_le _
    | _ => trivial
  · intro k row _ _ _
    exact Nat.le_add_right _ _

/-- No settlement has counted more than the allowed attempts. -/
theorem SentWithin.bound (hsent : SentWithin id base s) (hqueue : QueueOk cfg s) (hinv : Invariant s) :
    sentFor s.store id ≤ base + cfg.maxAttempts := by
  cases hrow : s.store.find id with
  | none =>
      rw [sentFor_of_unknown hinv.store hrow]
      exact Nat.zero_le _
  | some row =>
      have hid : row.id = id := Table.key_of_lookup hrow
      by_cases hheld : ∃ pid p, s.process pid = some p ∧ id ∈ p.held
      · rcases hheld with ⟨pid, p, hp, hmem⟩
        have hwithin := hsent.processes pid p hp
        have horderly := hqueue.processes pid p hp
        cases p with
        | attempt caller begun entity stage =>
            rw [held_attempt] at hmem
            rcases List.mem_cons.1 hmem with hmine | hrest
            · calc sentFor s.store id
                  ≤ sentFor s.store id + stage.unsent := Nat.le_add_right _ _
                _ ≤ base + entity.attempts := hwithin.1 hmine.symm
                _ ≤ base + cfg.maxAttempts := Nat.add_le_add_left horderly.1.attempts _
            · rcases List.mem_map.1 hrest with ⟨r, hr, hrid⟩
              calc sentFor s.store id
                  ≤ base + r.attempts := hwithin.2 r hr hrid
                _ ≤ base + cfg.maxAttempts := Nat.add_le_add_left (Nat.le_of_lt (horderly.2 r hr)) _
        | _ => cases hmem
      · have hnobody : ∀ pid p, s.process pid = some p → id ∉ p.held :=
          fun pid p hp hmem => hheld ⟨pid, p, hp, hmem⟩
        calc sentFor s.store id
            ≤ base + row.attempts := hsent.resting id row hrow hnobody hid
          _ ≤ base + cfg.maxAttempts :=
              Nat.add_le_add_left (hqueue.resting id row hrow hnobody).attempts _

end Sent

/-! ## Whole runs -/

/-- The state of the queue after a run: nothing is spoiled, and every announcement was true. -/
structure QueueInv (cfg : Config) (s : State) : Prop where
  safe : Invariant s
  queue : QueueOk cfg s
  announced : Announced s.store

theorem initial_queueInv (cfg : Config) : QueueInv cfg initial where
  safe := initial_invariant
  queue :=
    { processes := by
        intro pid p hp
        cases hp
      resting := by
        intro id row hrow
        cases hrow }
  announced :=
    { settled := by
        intro id hid
        cases hid
      last := List.Pairwise.nil }

theorem step_queueInv {cfg : Config} {a : Action} {s s' : State} (h : QueueInv cfg s)
    (hmax : 1 ≤ cfg.maxAttempts) (hok : NoSecondReplay a s) (hstep : step cfg a s = some s') :
    QueueInv cfg s' where
  safe := step_invariant h.safe hok hstep
  queue := step_queueOk h.queue h.safe hmax hok hstep
  announced := step_announced h.announced h.safe hstep

theorem run_queueInv {cfg : Config} {as : List Action} {s s' : State} (hmax : 1 ≤ cfg.maxAttempts)
    (h : QueueInv cfg s) (hrun : run (guarded (OneAfterTheOther cfg) (step cfg)) as s = some s') :
    QueueInv cfg s' := by
  refine run_invariant ?_ h hrun
  intro a t t' ht hstep
  rcases guarded_eq_some.1 hstep with ⟨hok, hstep⟩
  exact step_queueInv ht hmax hok.noSecondReplay hstep

/-- Over a run a settled row stays as it is. -/
theorem run_find_settled {cfg : Config} {as : List Action} {s s' : State} (hmax : 1 ≤ cfg.maxAttempts)
    (h : QueueInv cfg s) (hrun : run (guarded (OneAfterTheOther cfg) (step cfg)) as s = some s')
    {id : SettlementId} {row : SettlementRow} (hrow : s.store.find id = some row)
    (hsettled : row.status = .settled) : s'.store.find id = some row := by
  have hend : QueueInv cfg s' ∧ s'.store.find id = some row := by
    refine run_invariant (P := fun t => QueueInv cfg t ∧ t.store.find id = some row) ?_ ⟨h, hrow⟩ hrun
    intro a t t' ht hstep
    rcases guarded_eq_some.1 hstep with ⟨hok, hstep⟩
    exact ⟨step_queueInv ht.1 hmax hok.noSecondReplay hstep,
      step_find_settled ht.1.safe hstep ht.2 hsettled⟩
  exact hend.2

/-- The condition under which transactions are counted: no replay of the settlement is let through. -/
def NoReplayOf (cfg : Config) (id : SettlementId) (a : Action) (s : State) : Prop :=
  OneAfterTheOther cfg a s ∧ replayBegins cfg id a s = false

instance (cfg : Config) (id : SettlementId) (a : Action) (s : State) :
    Decidable (NoReplayOf cfg id a s) :=
  inferInstanceAs (Decidable (_ ∧ _))

theorem run_sentFor_le {cfg : Config} {as : List Action} {s s' : State} {id : SettlementId}
    (hmax : 1 ≤ cfg.maxAttempts) (h : QueueInv cfg s)
    (hrun : run (guarded (NoReplayOf cfg id) (step cfg)) as s = some s') :
    sentFor s'.store id ≤ sentFor s.store id + cfg.maxAttempts := by
  have hend : QueueInv cfg s' ∧ SentWithin id (sentFor s.store id) s' := by
    refine run_invariant (P := fun t => QueueInv cfg t ∧ SentWithin id (sentFor s.store id) t) ?_
      ⟨h, sentWithin_start h.queue id⟩ hrun
    intro a t t' ht hstep
    rcases guarded_eq_some.1 hstep with ⟨⟨hok, hno⟩, hstep⟩
    exact ⟨step_queueInv ht.1 hmax hok.noSecondReplay hstep,
      step_sentWithin ht.2 ht.1.safe hok.noSecondReplay hno hstep⟩
  exact hend.2.bound hend.1.queue hend.1.safe

theorem not_held_of_holds {s : State} {id : SettlementId} (h : s.holds id = false) :
    ∀ pid p, s.process pid = some p → id ∉ p.held := by
  intro pid p hp hheld
  have hholds : s.holds id = true :=
    List.any_eq_true.2 ⟨_, mem_processes hp, by simpa using hheld⟩
  rw [h] at hholds
  cases hholds

/-- The queue over a whole run of operations that act on each settlement one after the other while
storage works.  Every row nobody is working on is as promised; an announcement that a settlement was
settled is the last one about it; a settled row never changes again; and in any part of the run
without a new replay of it, in particular since its creation or its last replay, at most
`maxAttempts` transactions are broadcast for a settlement. -/
theorem settlement_queue (cfg : Config) (hmax : 1 ≤ cfg.maxAttempts) (as : List Action) (s : State)
    (hrun : run (guarded (OneAfterTheOther cfg) (step cfg)) as initial = some s) :
    (∀ row ∈ s.store.settlements, s.holds row.id = false → QueueSound cfg row) ∧
      s.store.emitted.Pairwise
        (fun later earlier => earlier.1 = .settlementSettled → later.2 ≠ earlier.2) ∧
      (∀ bs s', run (guarded (OneAfterTheOther cfg) (step cfg)) bs s = some s' →
        ∀ row ∈ s.store.settlements, row.status = .settled → s'.store.find row.id = some row) ∧
      ∀ id bs s', run (guarded (NoReplayOf cfg id) (step cfg)) bs s = some s' →
        sentFor s'.store id ≤ sentFor s.store id + cfg.maxAttempts := by
  have hinv := run_queueInv hmax (initial_queueInv cfg) hrun
  refine ⟨?_, hinv.announced.last, ?_, fun id bs s' hbs => run_sentFor_le hmax hinv hbs⟩
  · intro row hrow hfree
    exact hinv.queue.resting row.id row (Table.lookup_of_mem hinv.safe.store.rows hrow)
      (not_held_of_holds hfree)
  · intro bs s' hbs row hrow hsettled
    exact run_find_settled hmax hinv hbs (Table.lookup_of_mem hinv.safe.store.rows hrow) hsettled

/-- A first attempt sends once and times out; a replay adopts the transaction, and the row is
settled. -/
theorem settlement_queue_adoptedPayment :
    (∃ s, run (guarded (OneAfterTheOther sampleConfig) (step sampleConfig)) adoptedPayment initial =
        some s ∧
      ∃ row ∈ s.store.settlements, row.status = .settled ∧ QueueSound sampleConfig row) ∧
      ∃ s, run (guarded (NoReplayOf sampleConfig 7) (step sampleConfig)) firstAttempt initial = some s ∧
        sentFor s.store 7 = 1 ∧ sentFor s.store 7 ≤ sentFor initial.store 7 + 1 := by
  have hreached : ((run (guarded (OneAfterTheOther sampleConfig) (step sampleConfig)) adoptedPayment
      initial).any fun s => s.store.settlements.any fun row =>
        row.status = .settled && !s.holds row.id) = true := by
    decide +kernel
  have hsent : ((run (guarded (NoReplayOf sampleConfig 7) (step sampleConfig)) firstAttempt
      initial).any fun s => sentFor s.store 7 = 1) = true := by
    decide +kernel
  rcases (Option.any_eq_true _ _).1 hreached with ⟨s, hs, hany⟩
  rcases List.any_eq_true.1 hany with ⟨row, hrow, hfacts⟩
  simp only [Bool.and_eq_true, decide_eq_true_eq, Bool.not_eq_true'] at hfacts
  rcases (Option.any_eq_true _ _).1 hsent with ⟨t, ht, hone⟩
  refine ⟨⟨s, hs, row, hrow, hfacts.1, ?_⟩, ⟨t, ht, of_decide_eq_true hone, ?_⟩⟩
  · exact (settlement_queue sampleConfig (by decide) adoptedPayment s hs).1 row hrow hfacts.2
  · exact (settlement_queue sampleConfig (by decide) [] initial rfl).2.2.2 7 firstAttempt t ht

end Settlement
end PaymentRail
