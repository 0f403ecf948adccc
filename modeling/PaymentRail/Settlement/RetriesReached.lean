import PaymentRail.Collections.DueQueue
import PaymentRail.Machine.Backlog
import PaymentRail.Settlement.RetryQueue

/-!
# RetriesReached — no retry is overlooked for ever

A tick takes at most `batchSize` of the rows that are due, those that are due longest first.  Whatever
comes back to the queue comes back later than the time at which it was attempted.  So the rows that
were due no later than a given one are a backlog that only shrinks, by a whole batch whenever a tick
passes the row over (`passed_over_bound`); new settlements, replays and other failures do not push it
back.
-/

namespace PaymentRail
namespace Settlement

open Machine Strings Money Fees Collections

/-! ## Outcomes are due later -/

/-- An attempt that has an outcome in memory will be due again after the time it began at, if at all. -/
def Process.Later : Process → Prop
  | .attempt _ begun entity stage =>
      stage.beforeOutcome = false → ∀ next, entity.nextRetryAt = some next → begun < next
  | _ => True

section Later

variable {cfg : Config} {s s' : State} {now begun : Time} {reply : Reply} {p p' : Process}
  {entity next : SettlementRow} {stage stage' : Stage} {store store' : Store}

theorem backoffMs_pos (hbase : 0 < cfg.baseDelayMs) (hmax : 0 < cfg.maxDelayMs) (attempts : Nat) :
    0 < cfg.backoffMs attempts :=
  Nat.lt_min.2 ⟨Nat.mul_pos hbase (Nat.pow_pos (by decide)), hmax⟩

theorem later_recordFailure (hbase : 0 < cfg.baseDelayMs) (hmax : 0 < cfg.maxDelayMs)
    (error : Failure) :
    ∀ next, (recordFailure cfg begun entity error).nextRetryAt = some next → begun < next := by
  intro next hnext
  unfold recordFailure failureOutcome at hnext
  split at hnext
  · cases hnext
  · split at hnext
    · cases hnext
    · cases hnext
      exact Nat.lt_add_of_pos_right (backoffMs_pos hbase hmax entity.attempts)

theorem later_keepWaiting (hbase : 0 < cfg.baseDelayMs) :
    ∀ next, (keepWaiting cfg begun entity).nextRetryAt = some next → begun < next := by
  intro next hnext
  cases hnext
  exact Nat.lt_add_of_pos_right hbase

theorem beforeOutcome_startAttempt (row : SettlementRow) :
    (startAttempt row).2.beforeOutcome = true := by
  cases hhash : row.txHash with
  | none => simp [startAttempt, hhash, Stage.beforeOutcome]
  | some hash => simp [startAttempt, hhash, Stage.beforeOutcome]

theorem attempts_later (hbase : 0 < cfg.baseDelayMs) (hmax : 0 < cfg.maxDelayMs)
    (hlater : stage.beforeOutcome = false → ∀ next, entity.nextRetryAt = some next → begun < next)
    (h : Attempts cfg begun entity store stage reply store' (.await next stage')) :
    stage'.beforeOutcome = false → ∀ time, next.nextRetryAt = some time → begun < time := by
  intro houtcome
  cases h with
  | deep _ _ => exact nofun
  | shallow _ _ => exact later_keepWaiting hbase
  | inMempool _ => exact later_keepWaiting hbase
  | gasTooHigh _ => exact later_recordFailure hbase hmax _
  | badAmount _ => exact later_recordFailure hbase hmax _
  | confirmed _ _ => exact nofun
  | accrued => exact hlater rfl
  | notAccrued => exact hlater rfl
  | caught _ _ => exact later_recordFailure hbase hmax _
  -- the other waits come before the outcome
  | _ => cases houtcome

theorem turns_later (hbase : 0 < cfg.baseDelayMs) (hmax : 0 < cfg.maxDelayMs) (hlater : p.Later)
    (h : Turns cfg s now p reply store' p') : p'.Later := by
  have hstart : ∀ caller begun row,
      (Process.attempt caller begun (startAttempt row).1 (startAttempt row).2).Later := by
    intro caller begun row houtcome
    rw [beforeOutcome_startAttempt] at houtcome
    cases houtcome
  cases h with
  | inserted _ => exact hstart _ _ _
  | replayed _ _ _ _ => exact hstart _ _ _
  | scanned _ => exact hstart _ _ _
  | awaits hattempts => exact attempts_later hbase hmax hlater hattempts
  | nextDue _ => exact hstart _ _ _

theorem step_later {a : Action} (hbase : 0 < cfg.baseDelayMs) (hmax : 0 < cfg.maxDelayMs)
    (hlater : ∀ pid p, s.process pid = some p → p.Later) (hstep : step cfg a s = some s') :
    ∀ pid p, s'.process pid = some p → p.Later := by
  have hspawn : ∀ pid p, p.Later → ∀ qid q, (s.spawn pid p).process qid = some q → q.Later := by
    intro pid p hp qid q hq
    by_cases hqid : qid = pid
    · subst hqid
      rw [process_spawn_self] at hq
      cases hq
      exact hp
    · rw [process_spawn_of_ne s pid p hqid] at hq
      exact hlater qid q hq
  cases acts_of_step hstep with
  | settleBatch _ _ _ => exact hspawn _ _ trivial
  | processDue _ _ _ => exact hspawn _ _ trivial
  | replay _ => exact hspawn _ _ trivial
  | @resume pid now reply p _ hp hresumes =>
      intro qid q hq
      by_cases hqid : qid = pid
      · subst hqid
        exact turns_later hbase hmax (hlater qid p hp) (turns_of_resumes hresumes hq)
      · rw [resumes_others hresumes hqid] at hq
        exact hlater qid q hq
  | evolve _ _ => exact hlater
  | setPaused => exact hlater

end Later

/-! ## The backlog of a row -/

/-- Nobody is working on the settlement. -/
def State.Free (s : State) (id : SettlementId) : Prop :=
  ∀ pid p, s.process pid = some p → id ∉ p.held

/-- The attempt began before `t`, so that its outcome may be due by then. -/
def Process.begunBefore (t : Time) : Process → Bool
  | .attempt _ begun _ _ => begun < t
  | _ => false

/-- Due by the time `t`, or in the hands of somebody who may yet put it back to such a time. -/
def Pending (t : Time) (s : State) (id : SettlementId) : Prop :=
  (∃ row, s.store.find id = some row ∧ isDue t row = true ∧ s.Free id) ∨
    ∃ pid p, s.process pid = some p ∧ id ∈ p.held ∧ p.begunBefore t = true

/-- The row waits for its retry, due at `t`. -/
structure WaitsSince (t : Time) (row : SettlementRow) (s : State) : Prop where
  stored : s.store.find row.id = some row
  status : row.status = .retrying
  nextRetryAt : row.nextRetryAt = some t
  free : s.Free row.id

/-- A tick reads the queue, no earlier than `t`. -/
def scansSince (t : Time) (a : Action) (s : State) : Bool :=
  match a with
  | .resume pid _ .done =>
      match s.process pid with
      | some (.findDueRetries tick) => t ≤ tick
      | _ => false
  | _ => false

/-- The row is among those that a tick takes. -/
def takesUp (cfg : Config) (id : SettlementId) (a : Action) (s : State) : Bool :=
  match a with
  | .resume pid _ .done =>
      match s.process pid with
      | some (.findDueRetries tick) =>
          (findDueRetries s.store tick cfg.batchSize).any fun row => row.id = id
      | _ => false
  | _ => false

/-- Nothing happens before `t`. -/
def Action.since (t : Time) : Action → Bool
  | .processDue _ now => t ≤ now
  | .resume _ now _ => t ≤ now
  | _ => true

/-- Time has come to `t`, storage works, no replay overlaps another one, and no tick takes the row. -/
def PassesOver (cfg : Config) (id : SettlementId) (t : Time) (a : Action) (s : State) : Prop :=
  NoSecondReplay a s ∧ a.since t = true ∧ takesUp cfg id a s = false

instance (cfg : Config) (id : SettlementId) (t : Time) (a : Action) (s : State) :
    Decidable (PassesOver cfg id t a s) :=
  inferInstanceAs (Decidable (_ ∧ _))

/-- The settlements that wait for a retry are a queue. -/
theorem isDue_eq (t : Time) : isDue t =
    DueQueue.due (fun row => row.status = .retrying) SettlementRow.nextRetryAt t := rfl

theorem findDueRetries_eq (store : Store) (tick : Time) (limit : Nat) :
    findDueRetries store tick limit =
      DueQueue.first (fun row => row.status = .retrying) SettlementRow.nextRetryAt store.settlements
        tick limit := rfl

theorem isDue_iff {t : Time} {row : SettlementRow} :
    isDue t row = true ↔ row.status = .retrying ∧ ∃ next, row.nextRetryAt = some next ∧ next ≤ t := by
  rw [isDue_eq, DueQueue.due_iff, decide_eq_true_iff]

theorem isDue_mono {t t' : Time} {row : SettlementRow} (h : isDue t row = true) (hle : t ≤ t') :
    isDue t' row = true := by
  rw [isDue_eq] at h ⊢
  exact DueQueue.due_mono h hle

theorem isDue_of_mem {store : Store} {tick : Time} {limit : Nat} {row : SettlementRow}
    (h : row ∈ findDueRetries store tick limit) : row ∈ store.settlements ∧ isDue tick row = true := by
  rw [findDueRetries_eq] at h
  exact DueQueue.mem_first h

/-- A tick that passes a due row over takes a whole batch of rows that are due no later. -/
theorem findDueRetries_of_not_mem {store : Store} {tick t : Time} {limit : Nat} {row : SettlementRow}
    (hmem : row ∈ store.settlements) (hstatus : row.status = .retrying)
    (hnext : row.nextRetryAt = some t) (hdue : t ≤ tick)
    (hnot : row ∉ findDueRetries store tick limit) :
    (findDueRetries store tick limit).length = limit ∧
      ∀ other ∈ findDueRetries store tick limit, isDue t other = true := by
  rw [findDueRetries_eq] at hnot ⊢
  exact DueQueue.first_of_not_mem hmem (decide_eq_true hstatus) hnext hdue hnot

/-! ## Steps -/

section Steps

variable {cfg : Config} {s s' : State} {t : Time} {id : SettlementId} {pid : Pid} {now : Time}
  {reply : Reply} {p : Process}

/-- What a process holds after a step it held before, or has just taken up. -/
theorem held_of_turns {store' : Store} {p' : Process} (h : Turns cfg s now p reply store' p')
    (hheld : id ∈ p'.held) :
    id ∈ p.held ∨ (∃ entity, p = .insert entity ∧ id = entity.id ∧ s.store.find id = none) ∨
      (p = .findById id ∧ ∃ row, s.store.find id = some row ∧ replayable row.status = true) ∨
      ∃ tick, p = .findDueRetries tick ∧ reply = .done ∧
        id ∈ (findDueRetries s.store tick cfg.batchSize).map (·.id) := by
  cases h with
  | @inserted entity hfresh =>
      have hid : id = entity.id := by simpa [Process.held, startAttempt_id] using hheld
      exact Or.inr (Or.inl ⟨entity, rfl, hid, by rw [hid]; exact hfresh⟩)
  | @replayed known row hrow hstatus _ _ =>
      have hkey : row.id = known := Table.key_of_lookup hrow
      have hid : id = known := by simpa [Process.held, startAttempt_id, hkey] using hheld
      subst hid
      exact Or.inr (Or.inr (Or.inl ⟨rfl, row, hrow, hstatus⟩))
  | @scanned tick row rest hdue =>
      refine Or.inr (Or.inr (Or.inr ⟨tick, rfl, rfl, ?_⟩))
      rw [hdue]
      simpa [Process.held, startAttempt_id] using hheld
  | awaits hattempts =>
      rw [held_attempt, attempts_id hattempts] at hheld
      rw [held_attempt]
      exact Or.inl hheld
  | nextDue _ =>
      rw [held_attempt, startAttempt_id] at hheld
      rw [held_attempt]
      exact Or.inl (List.mem_cons_of_mem _ hheld)

/-- An attempt that is under way before `t` has begun before `t`, and goes on with what it held. -/
theorem begunBefore_of_turns {store' : Store} {p' : Process} (h : Turns cfg s now p reply store' p')
    (hnow : t ≤ now) (hearly : p'.begunBefore t = true) :
    p.begunBefore t = true ∨ ∃ tick, p = .findDueRetries tick ∧ tick < t := by
  cases h with
  | inserted _ => exact absurd (of_decide_eq_true hearly) (Nat.not_lt.2 hnow)
  | replayed _ _ _ _ => exact absurd (of_decide_eq_true hearly) (Nat.not_lt.2 hnow)
  | scanned _ => exact Or.inr ⟨_, rfl, of_decide_eq_true hearly⟩
  | awaits _ => exact Or.inl hearly
  | nextDue _ => exact Or.inl hearly

/-- Nobody held what a step touches and somebody else did not touch. -/
theorem free_of_moves {touched : List SettlementId} (hmoves : Moves s s' pid touched)
    (hid : id ∉ touched) : s'.Free id ↔ s.Free id := by
  constructor
  · intro hfree qid q hq hheld
    by_cases hqid : qid = pid
    · subst hqid
      exact hid (hmoves.before q hq id hheld)
    · exact hfree qid q (by rw [hmoves.others qid hqid]; exact hq) hheld
  · intro hfree qid q hq hheld
    by_cases hqid : qid = pid
    · subst hqid
      exact hid ((hmoves.after q hq).2 id hheld)
    · exact hfree qid q (by rw [← hmoves.others qid hqid]; exact hq) hheld

/-- Nothing becomes due by `t` that was not pending already. -/
theorem resumes_pending (hinv : Invariant s) (hlater : ∀ pid p, s.process pid = some p → p.Later)
    (hp : s.process pid = some p) (hok : NoSecondReplay (.resume pid now reply) s) (hnow : t ≤ now)
    (hresumes : Resumes cfg s pid now p reply s') (h : Pending t s' id) : Pending t s id := by
  rcases resumes_moves hinv hp hok hresumes with ⟨touched, hmoves, haccounted⟩
  rcases h with ⟨row, hrow, hdue, hfree⟩ | ⟨qid, q, hq, hheld, hearly⟩
  · by_cases htouched : id ∈ touched
    · rcases haccounted id htouched with hheld | ⟨p', hp', hheld⟩ | ⟨entity, rfl, rfl, _, hstore⟩
      · -- the row was put back by an attempt, which must have begun before `t`
        have hgone : ∀ p', s'.process pid = some p' → id ∉ p'.held := fun p' hp' => hfree pid p' hp'
        rcases released_saved hresumes hp hok.1 hheld hgone with
          ⟨caller, begun, entity, stage, rfl, rfl, hstage, hrows, _⟩
        have hfound : s'.store.find entity.id = some entity.stored := by
          rw [Store.find, hrows]
          exact find_save_self s.store entity
        rw [hfound] at hrow
        cases hrow
        rcases isDue_iff.1 hdue with ⟨_, next, hnext, hle⟩
        have houtcome : stage.beforeOutcome = false := by
          rcases hstage with rfl | rfl
          · rfl
          · rfl
        have hbegun : begun < next := hlater pid _ hp houtcome next hnext
        exact Or.inr ⟨pid, _, hp, hheld, decide_eq_true (Nat.lt_of_lt_of_le hbegun hle)⟩
      · exact absurd hheld (hfree pid p' hp')
      · -- a new settlement does not wait for a retry
        rw [hstore, find_save_self] at hrow
        cases hrow
        have hpending : entity.status = .pending := (hinv.processes pid _ hp).1
        have hretrying : entity.status = .retrying := (isDue_iff.1 hdue).1
        rw [hpending] at hretrying
        cases hretrying
    · rw [(hmoves.frame id htouched).1] at hrow
      exact Or.inl ⟨row, hrow, hdue, (free_of_moves hmoves htouched).1 hfree⟩
  · by_cases hqid : qid = pid
    · subst hqid
      have hturns := turns_of_resumes hresumes hq
      rcases begunBefore_of_turns hturns hnow hearly with hbefore | ⟨tick, rfl, htick⟩
      · rcases held_of_turns hturns hheld with hmine | ⟨entity, rfl, _, _⟩ | ⟨rfl, _, _⟩ | ⟨_, rfl, _⟩
        · exact Or.inr ⟨qid, p, hp, hmine, hbefore⟩
        · cases hbefore
        · cases hbefore
        · cases hbefore
      · rcases held_of_turns hturns hheld with hmine | ⟨_, hEq, _⟩ | ⟨hEq, _⟩ | ⟨_, hEq, _, hmem⟩
        · cases hmine
        · cases hEq
        · cases hEq
        · cases hEq
          rcases List.mem_map.1 hmem with ⟨row, hrow, rfl⟩
          rcases isDue_of_mem hrow with ⟨hstored, hdue⟩
          exact Or.inl ⟨row, Table.lookup_of_mem hinv.store.rows hstored,
            isDue_mono hdue (Nat.le_of_lt htick), (findDueRetries_free hinv hp hrow).1⟩
    · rw [resumes_others hresumes hqid] at hq
      exact Or.inr ⟨qid, q, hq, hheld, hearly⟩

/-- A process that begins holds nothing yet. -/
theorem free_spawn (hnone : s.process pid = none) (hheld : p.held = []) :
    (s.spawn pid p).Free id ↔ s.Free id := by
  constructor
  · intro hfree qid q hq
    have hqid : qid ≠ pid := by
      rintro rfl
      rw [hnone] at hq
      cases hq
    exact hfree qid q (by rw [process_spawn_of_ne s pid p hqid]; exact hq)
  · intro hfree qid q hq
    by_cases hqid : qid = pid
    · subst hqid
      rw [process_spawn_self] at hq
      cases hq
      rw [hheld]
      exact List.not_mem_nil
    · rw [process_spawn_of_ne s pid p hqid] at hq
      exact hfree qid q hq

theorem pending_spawn (hnone : s.process pid = none) (hheld : p.held = [])
    (h : Pending t (s.spawn pid p) id) : Pending t s id := by
  rcases h with ⟨row, hrow, hdue, hfree⟩ | ⟨qid, q, hq, hmem, hearly⟩
  · exact Or.inl ⟨row, hrow, hdue, (free_spawn hnone hheld).1 hfree⟩
  · by_cases hqid : qid = pid
    · subst hqid
      rw [process_spawn_self] at hq
      cases hq
      rw [hheld] at hmem
      cases hmem
    · rw [process_spawn_of_ne s pid p hqid] at hq
      exact Or.inr ⟨qid, q, hq, hmem, hearly⟩

theorem step_pending {a : Action} (hinv : Invariant s)
    (hlater : ∀ pid p, s.process pid = some p → p.Later) (hok : NoSecondReplay a s)
    (hsince : a.since t = true) (hstep : step cfg a s = some s') (h : Pending t s' id) :
    Pending t s id := by
  cases acts_of_step hstep with
  | settleBatch hnone _ _ => exact pending_spawn hnone rfl h
  | @processDue pid now hnone _ _ =>
      have hspawn : Pending t (s.spawn pid (.findDueRetries now)) id := h
      exact pending_spawn hnone rfl hspawn
  | replay hnone => exact pending_spawn hnone rfl h
  | resume hp hresumes =>
      exact resumes_pending hinv hlater hp hok (of_decide_eq_true hsince) hresumes h
  | evolve _ _ => exact h
  | setPaused => exact h

/-- Only a tick takes up a row that waits for its retry. -/
theorem resumes_waits {row : SettlementRow} (hinv : Invariant s) (hp : s.process pid = some p)
    (hok : NoSecondReplay (.resume pid now reply) s)
    (hover : takesUp cfg row.id (.resume pid now reply) s = false)
    (hresumes : Resumes cfg s pid now p reply s') (h : WaitsSince t row s) : WaitsSince t row s' := by
  have hrow := h.stored
  rcases resumes_moves hinv hp hok hresumes with ⟨touched, hmoves, haccounted⟩
  have hnot : row.id ∉ touched := by
    intro htouched
    rcases haccounted row.id htouched with hheld | ⟨p', hp', hheld⟩ | ⟨entity, _, hid, hfresh, _⟩
    · exact h.free pid p hp hheld
    · have hturns := turns_of_resumes hresumes hp'
      rcases held_of_turns hturns hheld with
        hmine | ⟨_, _, _, hfresh⟩ | ⟨_, row', hrow', hreplay⟩ | ⟨tick, rfl, rfl, hmem⟩
      · exact h.free pid p hp hmine
      · rw [hrow] at hfresh
        cases hfresh
      · rw [hrow] at hrow'
        cases hrow'
        simp [replayable, h.status] at hreplay
      · rcases List.mem_map.1 hmem with ⟨due, hdue, hid⟩
        simp only [takesUp, hp, List.any_eq_false, decide_eq_true_eq] at hover
        exact hover due hdue hid
    · rw [← hid, hrow] at hfresh
      cases hfresh
  refine ⟨?_, h.status, h.nextRetryAt, (free_of_moves hmoves hnot).2 h.free⟩
  rw [(hmoves.frame row.id hnot).1]
  exact hrow

theorem step_waits {a : Action} {row : SettlementRow} (hinv : Invariant s)
    (hok : PassesOver cfg row.id t a s) (hstep : step cfg a s = some s') (h : WaitsSince t row s) :
    WaitsSince t row s' := by
  cases acts_of_step hstep with
  | settleBatch hnone _ _ => exact ⟨h.stored, h.status, h.nextRetryAt, (free_spawn hnone rfl).2 h.free⟩
  | @processDue pid now hnone _ _ =>
      have hspawn : (s.spawn pid (.findDueRetries now)).Free row.id := (free_spawn hnone rfl).2 h.free
      exact ⟨h.stored, h.status, h.nextRetryAt, hspawn⟩
  | replay hnone => exact ⟨h.stored, h.status, h.nextRetryAt, (free_spawn hnone rfl).2 h.free⟩
  | resume hp hresumes => exact resumes_waits hinv hp hok.1 hok.2.2 hresumes h
  | evolve _ _ => exact ⟨h.stored, h.status, h.nextRetryAt, h.free⟩
  | setPaused => exact ⟨h.stored, h.status, h.nextRetryAt, h.free⟩

/-- A tick that passes a waiting row over takes a batch out of what is pending before it. -/
theorem scan_takes {a : Action} {row : SettlementRow} (hinv : Invariant s)
    (hok : PassesOver cfg row.id t a s) (hwaits : WaitsSince t row s) (hscan : scansSince t a s = true)
    (hstep : step cfg a s = some s') :
    ∃ taken : List SettlementId, taken.Nodup ∧ taken.length = cfg.batchSize ∧
      ∀ k ∈ taken, Pending t s k ∧ ¬ Pending t s' k := by
  unfold scansSince at hscan
  split at hscan
  · rename_i pid now
    split at hscan
    · rename_i tick hp
      have htick : t ≤ tick := of_decide_eq_true hscan
      have hinv' : Invariant s' := step_invariant hinv hok.1 hstep
      have hmem : row ∈ s.store.settlements := Table.mem_of_lookup hwaits.stored
      have hnot : row ∉ findDueRetries s.store tick cfg.batchSize := by
        intro hdue
        have hover := hok.2.2
        simp only [takesUp, hp, List.any_eq_false, decide_eq_true_eq] at hover
        exact hover row hdue rfl
      rcases findDueRetries_of_not_mem hmem hwaits.status hwaits.nextRetryAt htick hnot with
        ⟨hlength, hbefore⟩
      have hstate : s' = s.nextDue pid tick (findDueRetries s.store tick cfg.batchSize) := by
        simp only [step, hp, resume] at hstep
        exact (Option.some.inj hstep).symm
      refine ⟨(findDueRetries s.store tick cfg.batchSize).map (·.id),
        nodup_findDueRetries hinv.store.rows tick _, by rw [List.length_map, hlength], ?_⟩
      intro k hk
      rcases List.mem_map.1 hk with ⟨due, hdue, rfl⟩
      have hstored := (isDue_of_mem hdue).1
      refine ⟨Or.inl ⟨due, Table.lookup_of_mem hinv.store.rows hstored, hbefore due hdue,
        (findDueRetries_free hinv hp hdue).1⟩, ?_⟩
      -- now the tick holds it, and the tick has begun at `t` or later
      cases hrows : findDueRetries s.store tick cfg.batchSize with
      | nil =>
          rw [hrows] at hdue
          cases hdue
      | cons first rest =>
          have hself : s'.process pid = some (.attempt (.processDue rest) tick (startAttempt first).1
              (startAttempt first).2) := by
            rw [hstate, hrows]
            exact process_spawn_self _ _ _
          have hheld : due.id ∈ (Process.attempt (.processDue rest) tick (startAttempt first).1
              (startAttempt first).2).held := by
            rw [held_attempt, startAttempt_id]
            rw [hrows] at hk
            exact hk
          rintro (⟨_, _, _, hfree'⟩ | ⟨qid, q, hq, hmine, hearly⟩)
          · exact hfree' pid _ hself hheld
          · by_cases hqid : qid = pid
            · subst hqid
              rw [hself] at hq
              cases hq
              exact absurd (of_decide_eq_true hearly) (Nat.not_lt.2 htick)
            · exact hinv'.exclusive qid pid q _ hq hself hqid _ hmine hheld
    · cases hscan
  · cases hscan

end Steps

/-! ## Runs -/

/-- In front of the row there can be no more than this: rows that are due by then, and settlements that
somebody is working on. -/
def backlog (t : Time) (s : State) : List SettlementRow :=
  s.store.settlements.filter fun row => isDue t row || s.holds row.id

theorem mem_backlog {t : Time} {s : State} {id : SettlementId} (hinv : Invariant s)
    (h : Pending t s id) : id ∈ (backlog t s).map SettlementRow.id := by
  rcases h with ⟨row, hrow, hdue, _⟩ | ⟨pid, p, hp, hheld, _⟩
  · refine List.mem_map.2 ⟨row, List.mem_filter.2 ⟨Table.mem_of_lookup hrow, ?_⟩,
      Table.key_of_lookup hrow⟩
    simp [hdue]
  · rcases (hinv.processes pid p hp).stored hheld with ⟨row, hrow, _⟩
    have hid : row.id = id := Table.key_of_lookup hrow
    have hholds : s.holds row.id = true := by
      rw [hid]
      exact List.any_eq_true.2 ⟨_, mem_processes hp, by simpa using hheld⟩
    exact List.mem_map.2 ⟨row, List.mem_filter.2 ⟨Table.mem_of_lookup hrow, by simp [hholds]⟩, hid⟩

/-- What a run keeps while ticks pass the row over. -/
structure Waiting (t : Time) (row : SettlementRow) (s : State) : Prop where
  safe : Invariant s
  later : ∀ pid p, s.process pid = some p → p.Later
  waits : WaitsSince t row s

theorem step_waiting {cfg : Config} (hbase : 0 < cfg.baseDelayMs) (hmax : 0 < cfg.maxDelayMs)
    {t : Time} {row : SettlementRow} {a : Action} {s s' : State} (h : Waiting t row s)
    (hstep : guarded (PassesOver cfg row.id t) (step cfg) a s = some s') :
    Waiting t row s' ∧ Shrinks (Pending t s) (Pending t s') (scansSince t a s) cfg.batchSize := by
  rcases guarded_eq_some.1 hstep with ⟨hok, hstep⟩
  refine ⟨⟨step_invariant h.safe hok.1 hstep, step_later hbase hmax h.later hstep,
    step_waits h.safe hok hstep h.waits⟩, ?_, ?_⟩
  · exact fun _ hpending => step_pending h.safe h.later hok.1 hok.2.1 hstep hpending
  · exact fun hscan => scan_takes h.safe hok h.waits hscan hstep

/-- No retry is overlooked for ever.  Take any reachable state, with whatever is under way, and a row
that waits for its retry since `t`.  As long as ticks pass it over it stays as it is; but the ticks
that read the queue and pass it over are fewer than the batches that fit into what was due by `t` or
in somebody's hands at the beginning, whatever is settled, replayed or put back meanwhile. -/
theorem passed_over_bound (cfg : Config) (hbase : 0 < cfg.baseDelayMs) (hmax : 0 < cfg.maxDelayMs)
    {as : List Action} {s : State} (hrun : run (guarded NoSecondReplay (step cfg)) as initial = some s)
    {row : SettlementRow} (hrow : row ∈ s.store.settlements) (hstatus : row.status = .retrying)
    (hfree : s.holds row.id = false) {t : Time} (hnext : row.nextRetryAt = some t)
    {bs : List Action} {s' : State}
    (hbs : run (guarded (PassesOver cfg row.id t) (step cfg)) bs s = some s') :
    occurrences (guarded (PassesOver cfg row.id t) (step cfg)) (scansSince t) bs s * cfg.batchSize <
        (backlog t s).length ∧
      s'.store.find row.id = some row := by
  have hreached : Invariant s ∧ ∀ pid p, s.process pid = some p → p.Later := by
    refine run_invariant (P := fun s => Invariant s ∧ ∀ pid p, s.process pid = some p → p.Later) ?_
      ⟨initial_invariant, fun _ _ hp => absurd hp (Option.some_ne_none _).symm⟩ hrun
    intro a s s' h hstep
    rcases guarded_eq_some.1 hstep with ⟨hok, hstep⟩
    exact ⟨step_invariant h.1 hok hstep, step_later hbase hmax h.2 hstep⟩
  have hkeyed := hreached.1.store.rows
  have hwaiting : Waiting t row s :=
    ⟨hreached.1, hreached.2, Table.lookup_of_mem hkeyed hrow, hstatus, hnext,
      not_held_of_holds hfree⟩
  have hkeys : ((backlog t s).map SettlementRow.id).Nodup :=
    hkeyed.sublist (List.filter_sublist.map _)
  rcases run_backlog (fun _ _ _ h hstep => step_waiting hbase hmax h hstep) hwaiting hkeys
    (fun _ hpending => mem_backlog hreached.1 hpending) hbs with ⟨hend, rest, _, hcover, hle⟩
  refine ⟨?_, hend.waits.stored⟩
  -- the row itself is still pending
  have hmine : row.id ∈ rest := by
    refine hcover row.id (Or.inl ⟨row, hend.waits.stored, ?_, hend.waits.free⟩)
    exact isDue_iff.2 ⟨hstatus, t, hnext, Nat.le_refl t⟩
  have hpos : 0 < rest.length := List.length_pos_of_mem hmine
  calc occurrences (guarded (PassesOver cfg row.id t) (step cfg)) (scansSince t) bs s * cfg.batchSize
      < occurrences (guarded (PassesOver cfg row.id t) (step cfg)) (scansSince t) bs s
          * cfg.batchSize + rest.length := Nat.lt_add_of_pos_right hpos
    _ ≤ ((backlog t s).map SettlementRow.id).length := hle
    _ = (backlog t s).length := List.length_map _

/-- One retry at a time. -/
def oneAtATime : Config :=
  { sampleConfig with maxAttempts := 2, batchSize := 1 }

/-- Two settlements that could not be broadcast, the first due at 30000, the second at 30500. -/
def twoWaiting : List Action :=
  [.settleBatch 0 7 sampleInput, .resume 0 0 .done, .resume 0 0 (.gas none),
    .resume 0 0 (.failed refused), .resume 0 0 .done, .settleBatch 1 8 sampleInput,
    .resume 1 500 .done, .resume 1 500 (.gas none), .resume 1 500 (.failed refused),
    .resume 1 500 .done]

/-- A tick takes up the first of them. -/
def oneTick : List Action :=
  [.processDue 2 31000, .resume 2 31000 .done]

theorem passed_over_bound_oneTick :
    ∃ s row s', run (guarded NoSecondReplay (step oneAtATime)) twoWaiting initial = some s ∧
      row ∈ s.store.settlements ∧ row.nextRetryAt = some 30500 ∧
      run (guarded (PassesOver oneAtATime row.id 30500) (step oneAtATime)) oneTick s = some s' ∧
      1 < (backlog 30500 s).length ∧ s'.store.find row.id = some row := by
  have hreached : ((run (guarded NoSecondReplay (step oneAtATime)) twoWaiting initial).any fun s =>
      s.store.settlements.any fun row =>
        row.status = .retrying && !s.holds row.id && row.nextRetryAt = some 30500 &&
          (run (guarded (PassesOver oneAtATime row.id 30500) (step oneAtATime)) oneTick s).isSome &&
          occurrences (guarded (PassesOver oneAtATime row.id 30500) (step oneAtATime))
            (scansSince 30500) oneTick s = 1) = true := by
    decide +kernel
  rcases (Option.any_eq_true _ _).1 hreached with ⟨s, hs, hany⟩
  rcases List.any_eq_true.1 hany with ⟨row, hrow, hfacts⟩
  simp only [Bool.and_eq_true, decide_eq_true_eq, Bool.not_eq_true'] at hfacts
  rcases hfacts with ⟨⟨⟨⟨hstatus, hfree⟩, hnext⟩, hsome⟩, hone⟩
  rcases Option.isSome_iff_exists.1 hsome with ⟨s', hs'⟩
  have hbound := passed_over_bound oneAtATime (by decide) (by decide) hs hrow hstatus hfree hnext hs'
  refine ⟨s, row, s', hs, hrow, hnext, hs', ?_, hbound.2⟩
  have hlt := hbound.1
  rw [hone] at hlt
  exact hlt

end Settlement
end PaymentRail
