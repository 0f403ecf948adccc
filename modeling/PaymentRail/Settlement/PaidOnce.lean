import PaymentRail.Settlement.ProcessSafety

/-!
# PaidOnce — a settlement is paid at most once

Runs of the machine of `SettlementService` under two conditions: operations acting on each
settlement one after the other (`settlement_paid_once`), and the weaker one that no replay is let
through while another replay of the settlement is under way (`replay_pays_once`).  The latter is
needed: `replay` reads the status and writes it back only after the transaction was sent, and two
overlapping replays both pay (`overlapping_replays_pay_twice`).
-/

namespace PaymentRail
namespace Settlement

open Machine Strings Money Fees Collections

/-! ## Conditions on runs -/

/-- A save of an attempt is answered with an error. -/
def storageFailure (a : Action) (s : State) : Bool :=
  match a with
  | .resume pid _ reply =>
      match s.process pid with
      | some (.attempt _ _ _ stage) => storageFails stage reply
      | _ => false
  | _ => false

def Process.replays (id : SettlementId) : Process → Bool
  | .attempt .replay _ entity _ => entity.id = id
  | _ => false

/-- A replay is let through its status check while another replay of the settlement is under way. -/
def secondReplay (a : Action) (s : State) : Bool :=
  match a with
  | .resume pid _ .done =>
      match s.process pid with
      | some (.findById id) =>
          (s.store.find id).any (fun row => replayable row.status) &&
            s.processes.any fun entry => entry.2.replays id
      | _ => false
  | _ => false

def State.holds (s : State) (id : SettlementId) : Bool :=
  s.processes.any fun entry => entry.2.held.contains id

/-- An operation takes up a settlement that another operation is still working on. -/
def overlap (cfg : Config) (a : Action) (s : State) : Bool :=
  match a with
  | .resume pid _ .done =>
      match s.process pid with
      | some (.findById id) =>
          (s.store.find id).any (fun row => replayable row.status) && s.holds id
      | some (.findDueRetries tick) =>
          (findDueRetries s.store tick cfg.batchSize).any fun row => s.holds row.id
      | _ => false
  | _ => false

/-- Storage writes succeed, and no replay overlaps another replay of the same settlement. -/
def NoSecondReplay (a : Action) (s : State) : Prop :=
  storageFailure a s = false ∧ secondReplay a s = false

instance (a : Action) (s : State) : Decidable (NoSecondReplay a s) :=
  inferInstanceAs (Decidable (_ ∧ _))

/-- Storage writes succeed, and the operations act on each settlement one after the other. -/
def OneAfterTheOther (cfg : Config) (a : Action) (s : State) : Prop :=
  storageFailure a s = false ∧ overlap cfg a s = false

instance (cfg : Config) (a : Action) (s : State) : Decidable (OneAfterTheOther cfg a s) :=
  inferInstanceAs (Decidable (_ ∧ _))

theorem mem_processes {s : State} {pid : Pid} {p : Process} (h : s.process pid = some p) :
    (pid, p) ∈ s.processes := by
  rcases Option.map_eq_some_iff.1 h with ⟨entry, hentry, rfl⟩
  have hkey : entry.1 = pid := Table.key_of_lookup hentry
  rw [← hkey]
  exact Table.mem_of_lookup hentry

/-- A replay under way holds its settlement. -/
theorem replays_held {p : Process} {id : SettlementId} (h : p.replays id = true) : id ∈ p.held := by
  cases p with
  | attempt caller now entity stage =>
      cases caller with
      | replay =>
          have hid : entity.id = id := by simpa [Process.replays] using h
          simp [Process.held, hid]
      | settleBatch => simp [Process.replays] at h
      | processDue rest => simp [Process.replays] at h
  | insert entity => simp [Process.replays] at h
  | findById j => simp [Process.replays] at h
  | findDueRetries now => simp [Process.replays] at h

theorem overlap_of_secondReplay {cfg : Config} {a : Action} {s : State}
    (h : secondReplay a s = true) : overlap cfg a s = true := by
  unfold secondReplay at h
  split at h
  · split at h
    · rename_i pid now id hp
      rcases Bool.and_eq_true_iff.1 h with ⟨hrow, hany⟩
      rcases List.any_eq_true.1 hany with ⟨entry, hentry, hreplays⟩
      have hholds : s.holds id = true :=
        List.any_eq_true.2 ⟨entry, hentry, by simpa using replays_held hreplays⟩
      simp [overlap, hp, hrow, hholds]
    · cases h
  · cases h

/-- Operations that do not overlap do not overlap as replays either. -/
theorem OneAfterTheOther.noSecondReplay {cfg : Config} {a : Action} {s : State}
    (h : OneAfterTheOther cfg a s) : NoSecondReplay a s := by
  refine ⟨h.1, ?_⟩
  by_contra hsecond
  have hoverlap : overlap cfg a s = true := overlap_of_secondReplay (by simpa using hsecond)
  rw [h.2] at hoverlap
  cases hoverlap

/-! ## Every step keeps the invariant -/

/-- A resumed process moves on, and what it touches it held before, holds afterwards, or has just
written without a hub to send it to. -/
theorem resumes_moves {cfg : Config} {s s' : State} {pid : Pid} {now : Time} {reply : Reply}
    {p : Process} (hinv : Invariant s) (hp : s.process pid = some p)
    (hok : NoSecondReplay (.resume pid now reply) s) (hresumes : Resumes cfg s pid now p reply s') :
    ∃ touched, Moves s s' pid touched ∧ ∀ id ∈ touched, id ∈ p.held ∨
      (∃ p', s'.process pid = some p' ∧ id ∈ p'.held) ∨ ∃ entity, p = .insert entity ∧
        id = entity.id ∧ s.store.find entity.id = none ∧ s'.store = s.store.save entity := by
  -- a process that holds nothing may end
  have hlocal : p.held = [] → Local s pid s.store [] := by
    intro hheld
    refine hinv.local_nil ?_
    intro q hq
    rw [hp] at hq
    cases hq
    exact hheld
  have hnothing : ∀ id ∈ ([] : List SettlementId), ∀ row, s.store.find id = some row →
      RowSound s.store.transactions row := by
    intro id hid
    cases hid
  have hexit : p.held = [] → ∃ touched, Moves s (s.exit pid) pid touched ∧ ∀ id ∈ touched,
      id ∈ p.held ∨ (∃ p', (s.exit pid).process pid = some p' ∧ id ∈ p'.held) ∨
        ∃ entity, p = .insert entity ∧ id = entity.id ∧ s.store.find entity.id = none ∧
          (s.exit pid).store = s.store.save entity := by
    intro hheld
    refine ⟨[], exit_moves (hlocal hheld) hinv hnothing, ?_⟩
    intro id hid
    cases hid
  cases hresumes with
  | @inserted entity hfresh _ =>
      refine ⟨_, (insert_moves now hinv hp hfresh).2, ?_⟩
      intro id hid
      refine Or.inr (Or.inl ⟨_, process_spawn_self _ _ _, ?_⟩)
      simpa [Process.held, startAttempt_id] using hid
  | @insertedOnly entity hfresh _ =>
      refine ⟨_, (insert_moves now hinv hp hfresh).1, ?_⟩
      intro id hid
      exact Or.inr (Or.inr ⟨entity, rfl, List.mem_singleton.1 hid, hfresh, rfl⟩)
  | notInserted => exact hexit rfl
  | unknown _ => exact hexit rfl
  | @replayed id row hrow hstatus _ _ =>
      have hkey : row.id = id := Table.key_of_lookup hrow
      refine ⟨[id], replay_moves hinv hp hrow hstatus ?_, ?_⟩
      · intro qid now' entity stage hq hid
        -- such a replay would make this step a second one
        have hsecond := hok.2
        simp only [secondReplay, hp, hrow, Option.any_some, hstatus, Bool.true_and] at hsecond
        have hany : (s.processes.any fun entry => entry.2.replays id) = true :=
          List.any_eq_true.2 ⟨_, mem_processes hq, by simpa [Process.replays] using hid⟩
        rw [hany] at hsecond
        cases hsecond
      · intro j hj
        refine Or.inr (Or.inl ⟨_, process_spawn_self _ _ _, ?_⟩)
        simpa [Process.held, startAttempt_id, hkey] using hj
  | refused _ _ => exact hexit rfl
  | notRead => exact hexit rfl
  | @scanned tick =>
      refine ⟨_, findDueRetries_moves hinv hp, ?_⟩
      intro id hid
      rcases List.mem_map.1 hid with ⟨due, hdue, rfl⟩
      cases hrows : findDueRetries s.store tick cfg.batchSize with
      | nil =>
          rw [hrows] at hdue
          cases hdue
      | cons row rest =>
          refine Or.inr (Or.inl ⟨_, process_spawn_self _ _ _, ?_⟩)
          rw [hrows] at hdue
          have hheld : due.id ∈ (row :: rest).map (·.id) := List.mem_map.2 ⟨due, hdue, rfl⟩
          simpa [Process.held, startAttempt_id] using hheld
  | notScanned =>
      refine ⟨[], endTick_moves (hlocal rfl) hinv hp rfl hnothing, ?_⟩
      intro id hid
      cases hid
  | @attempted caller begun entity stage reply store' flow hattempt =>
      have hstorage : storageFails stage reply = false := by
        have h := hok.1
        simpa only [storageFailure, hp] using h
      cases caller with
      | settleBatch =>
          rcases attemptStep_sound hinv.store (hinv.processes pid _ hp) hstorage hattempt with
            ⟨hprogress, hflow⟩
          exact ⟨_, request_moves hinv hp (Or.inl rfl) hprogress hflow, fun id hid => Or.inl hid⟩
      | replay =>
          rcases attemptStep_sound hinv.store (hinv.processes pid _ hp) hstorage hattempt with
            ⟨hprogress, hflow⟩
          exact ⟨_, request_moves hinv hp (Or.inr rfl) hprogress hflow, fun id hid => Or.inl hid⟩
      | processDue rest =>
          rcases attemptStep_sound hinv.store (hinv.processes pid _ hp).1 hstorage hattempt with
            ⟨hprogress, hflow⟩
          exact ⟨_, tick_moves hinv hp hprogress hflow, fun id hid => Or.inl hid⟩

theorem resumes_invariant {cfg : Config} {s s' : State} {pid : Pid} {now : Time} {reply : Reply}
    {p : Process} (hinv : Invariant s) (hp : s.process pid = some p)
    (hok : NoSecondReplay (.resume pid now reply) s) (hresumes : Resumes cfg s pid now p reply s') :
    Invariant s' := by
  rcases resumes_moves hinv hp hok hresumes with ⟨touched, hmoves, _⟩
  exact hmoves.invariant hinv

theorem newSettlement_fields {cfg : Config} {id : SettlementId} {input : SettleBatchInput}
    {entity : SettlementRow} (h : newSettlement cfg id input = .ok entity) :
    entity.status = .pending ∧ entity.txHash = none := by
  simp only [newSettlement, bind_eq_ok, pure_eq_ok] at h
  rcases h with ⟨quoted, _, rfl⟩
  exact ⟨rfl, rfl⟩

/-- A new process that holds nothing. -/
theorem spawn_invariant {s : State} {pid : Pid} {p : Process} (hinv : Invariant s)
    (hfree : s.process pid = none) (hsound : ProcessSound s.store p) (hheld : p.held = [])
    (htick : p.isTick = false) : Invariant (s.spawn pid p) := by
  have hlocal : Local s pid s.store [] := hinv.local_nil (by simp [hfree])
  refine (spawn_moves hlocal hinv hsound (by simp [hheld]) ?_ (by simp [htick])).invariant hinv
  intro id hid
  cases hid

/-- A tick starts: there is no other one, or `running` would be set. -/
theorem startTick_invariant {s : State} {pid : Pid} {now : Time} (hinv : Invariant s)
    (hfree : s.process pid = none) (hrunning : s.running = false) :
    Invariant { s.spawn pid (.findDueRetries now) with running := true } := by
  have hnoTick : ∀ qid q, s.process qid = some q → q.isTick = false := by
    intro qid q hq
    by_contra htick
    have hrun := (hinv.ticks qid q hq (by simpa using htick)).1
    rw [hrunning] at hrun
    cases hrun
  have hothers : ∀ qid, qid ≠ pid →
      (s.spawn pid (.findDueRetries now)).process qid = s.process qid :=
    fun qid hqid => process_spawn_of_ne s pid _ hqid
  have honly : ∀ qid q, (s.spawn pid (.findDueRetries now)).process qid = some q →
      q.isTick = true → qid = pid := by
    intro qid q hq htick
    by_contra hqid
    rw [hothers qid hqid] at hq
    rw [hnoTick qid q hq] at htick
    cases htick
  have hmoves : Moves s { s.spawn pid (.findDueRetries now) with running := true } pid [] :=
    { toLocal := hinv.local_nil (by simp [hfree])
      others := hothers
      after := by
        intro q hq
        have hEq : q = .findDueRetries now := by
          have hself := process_spawn_self s pid (.findDueRetries now)
          exact (Option.some.inj (hself.symm.trans hq)).symm
        rw [hEq]
        exact ⟨trivial, by simp [Process.held]⟩
      released := by
        intro id hid
        cases hid
      ticks := by
        intro qid q hq htick
        refine ⟨rfl, ?_⟩
        intro rid r hr hrtick
        rw [honly qid q hq htick, honly rid r hr hrtick] }
  exact hmoves.invariant hinv

/-- The chain moves on. -/
theorem evolve_invariant {s : State} {tx : Transaction} {fate : Fate} (hinv : Invariant s)
    (hmem : tx ∈ s.store.transactions) (hbecome : tx.fate.canBecome fate = true) :
    Invariant { s with store := s.store.broadcast { tx with fate } } := by
  have hev : ∀ id, Evolved id s.store.transactions
      (s.store.broadcast { tx with fate }).transactions :=
    fun id => evolved_evolve hinv.store.hashes hmem hbecome
  exact
    { store := hinv.store.broadcast (hinv.store.parents tx hmem)
      processes := fun pid p hp => (hinv.processes pid p hp).frame (fun id _ => ⟨rfl, hev id⟩)
      exclusive := hinv.exclusive
      ticks := hinv.ticks
      resting := fun id row hrow hfree => (hinv.resting id row hrow hfree).mono (hev row.id) }

theorem step_invariant {cfg : Config} {a : Action} {s s' : State} (hinv : Invariant s)
    (hok : NoSecondReplay a s) (hstep : step cfg a s = some s') : Invariant s' := by
  cases acts_of_step hstep with
  | settleBatch hfree _ hentity =>
      exact spawn_invariant hinv hfree (newSettlement_fields hentity) rfl rfl
  | processDue hfree hrunning _ => exact startTick_invariant hinv hfree hrunning
  | replay hfree => exact spawn_invariant hinv hfree trivial rfl rfl
  | resume hp hresumes => exact resumes_invariant hinv hp hok hresumes
  | evolve htx hbecome => exact evolve_invariant hinv (Table.mem_of_lookup htx) hbecome
  | setPaused => exact ⟨hinv.store, hinv.processes, hinv.exclusive, hinv.ticks, hinv.resting⟩

theorem run_noSecondReplay_invariant {cfg : Config} {as : List Action} {s : State}
    (hrun : run (guarded NoSecondReplay (step cfg)) as initial = some s) : Invariant s := by
  refine run_invariant ?_ initial_invariant hrun
  intro a t t' hinv hstep
  rcases guarded_eq_some.1 hstep with ⟨hok, hstep⟩
  exact step_invariant hinv hok hstep

theorem run_oneAfterTheOther_invariant {cfg : Config} {as : List Action} {s : State}
    (hrun : run (guarded (OneAfterTheOther cfg) (step cfg)) as initial = some s) : Invariant s := by
  refine run_invariant ?_ initial_invariant hrun
  intro a t t' hinv hstep
  rcases guarded_eq_some.1 hstep with ⟨hok, hstep⟩
  exact step_invariant hinv hok.noSecondReplay hstep

/-! ## What the invariant says about payments -/

/-- The transactions of a settlement that were mined successfully. -/
def minedOf (store : Store) (id : SettlementId) : List Transaction :=
  store.transactions.filter fun tx => tx.settlementId = id && tx.fate.isMined

theorem mem_minedOf {store : Store} {id : SettlementId} {tx : Transaction} :
    tx ∈ minedOf store id ↔
      tx ∈ store.transactions ∧ tx.settlementId = id ∧ tx.fate.isMined = true := by
  simp [minedOf]

theorem Invariant.owns {s : State} (hinv : Invariant s) (id : SettlementId) :
    ∃ hash, Owns s.store.transactions id hash := by
  by_cases hrow : s.store.find id = none
  · -- no row, no transactions
    refine ⟨none, ?_⟩
    intro tx htx hid
    rcases hinv.store.parents tx htx with ⟨row, hparent⟩
    rw [hid, hrow] at hparent
    cases hparent
  · rcases Option.ne_none_iff_exists'.1 hrow with ⟨row, hrow⟩
    -- the hash is in the memory of the holder, or else in the row
    by_cases hheld : ∃ pid p, s.process pid = some p ∧ id ∈ p.held
    · rcases hheld with ⟨pid, p, hp, hid⟩
      exact (hinv.processes pid p hp).owns hid
    · have hfree : ∀ pid p, s.process pid = some p → id ∉ p.held :=
        fun pid p hp hid => hheld ⟨pid, p, hp, hid⟩
      have hsound := hinv.resting id row hrow hfree
      have hkey : row.id = id := Table.key_of_lookup hrow
      exact ⟨row.txHash, hkey ▸ hsound.owns⟩

theorem Invariant.length_minedOf {s : State} (hinv : Invariant s) (id : SettlementId) :
    (minedOf s.store id).length ≤ 1 := by
  rcases hinv.owns id with ⟨hash, howns⟩
  -- mined transactions are live, so two of them have the one owned hash
  refine hinv.store.hashes.length_filter_le_one ?_
  intro tx htx tx' htx' hmined hmined'
  simp only [Bool.and_eq_true, decide_eq_true_eq] at hmined hmined'
  have hhash := howns tx htx hmined.1 (Fate.live_of_isMined hmined.2)
  have hhash' := howns tx' htx' hmined'.1 (Fate.live_of_isMined hmined'.2)
  exact Option.some.inj (hhash.symm.trans hhash')

/-- A settled row is at rest: no process holds a settled row. -/
theorem Invariant.paid_of_settled {s : State} (hinv : Invariant s) {row : SettlementRow}
    (hmem : row ∈ s.store.settlements) (hsettled : row.status = .settled) :
    ∃ tx, minedOf s.store row.id = [tx] ∧ row.txHash = some tx.hash := by
  have hrow : s.store.find row.id = some row := Table.lookup_of_mem hinv.store.rows hmem
  have hrest := hinv.resting_of_status hrow (by
    intro qid q hq hheld row' hrow' hcases
    rw [hrow] at hrow'
    cases hrow'
    rcases hcases with ⟨_, hretrying⟩ | ⟨_, hpending⟩ | ⟨_, hreplay, _⟩
    · rw [hsettled] at hretrying
      cases hretrying
    · rw [hsettled] at hpending
      cases hpending
    · simp [replayable, hsettled] at hreplay)
  rcases hrest.2.paid hsettled with ⟨tx, htx, hid, hhash, hmined⟩
  have hin : tx ∈ minedOf s.store row.id := mem_minedOf.2 ⟨htx, hid, hmined⟩
  refine ⟨tx, ?_, hhash⟩
  have hpos : 0 < (minedOf s.store row.id).length := List.length_pos_of_mem hin
  have hle := hinv.length_minedOf row.id
  have hlength : (minedOf s.store row.id).length = 1 := by omega
  rcases List.length_eq_one_iff.1 hlength with ⟨tx', hone⟩
  rw [hone] at hin ⊢
  rw [List.mem_singleton.1 hin]

/-! ## Operations one after the other -/

/-- A settlement is paid at most once across retries and replays: in every run in which the
operations act on each settlement one after the other and storage writes succeed, at most one
transaction of a settlement is ever mined successfully, and a row is settled only if exactly one
was, the one whose hash it stores. -/
theorem settlement_paid_once (cfg : Config) (as : List Action) (s : State)
    (hrun : run (guarded (OneAfterTheOther cfg) (step cfg)) as initial = some s) :
    ∀ row ∈ s.store.settlements,
      (minedOf s.store row.id).length ≤ 1 ∧
        (row.status = .settled →
          ∃ tx, minedOf s.store row.id = [tx] ∧ row.txHash = some tx.hash) := by
  intro row hrow
  have hinv := run_oneAfterTheOther_invariant hrun
  exact ⟨hinv.length_minedOf row.id, fun hsettled => hinv.paid_of_settled hrow hsettled⟩

def sampleConfig : Config where
  hubConfigured := true
  maxAttempts := 1
  baseDelayMs := 30000
  maxDelayMs := 3600000
  batchSize := 20
  confirmations := 3
  maxFeePerGasWei := 0
  policy := { bps := 50, minFee := 0, maxFee := none }

def sampleInput : SettleBatchInput where
  escrowId := ['e']
  receiptsHash := ['r']
  totalAmount := ['1', '.', '5']
  receiptCount := none
  packedReceipts := none

def timeout : Failure where
  code := "TIMEOUT"
  message := "wait for transaction timeout"

/-- A first attempt that is sent, and whose wait times out. -/
def firstAttempt : List Action :=
  [.settleBatch 0 7 sampleInput, .resume 0 0 .done, .resume 0 0 (.gas none), .resume 0 0 (.sent 100),
    .resume 0 0 .done, .resume 0 0 (.failed timeout), .resume 0 0 .done]

/-- The transaction is mined after all, and a replay adopts it: first below, then at the required
depth. -/
def adoptedPayment : List Action :=
  firstAttempt ++
    [.evolve 100 (.mined 1), .replay 1 7, .resume 1 10 .done, .resume 1 10 .done,
      .resume 1 10 .done, .resume 1 10 .done, .evolve 100 (.mined 5), .processDue 2 40000,
      .resume 2 40000 .done, .resume 2 40000 .done, .resume 2 40000 .done, .resume 2 40000 .done,
      .resume 2 40000 .done]

theorem settlement_paid_once_adoptedPayment :
    ∃ s, run (guarded (OneAfterTheOther sampleConfig) (step sampleConfig)) adoptedPayment initial =
        some s ∧
      ∃ row ∈ s.store.settlements, row.status = .settled ∧
        ∃ tx, minedOf s.store row.id = [tx] ∧ row.txHash = some tx.hash := by
  have hreached : ((run (guarded (OneAfterTheOther sampleConfig) (step sampleConfig)) adoptedPayment
      initial).any fun s => s.store.settlements.any fun row => row.status = .settled) = true := by
    decide +kernel
  rcases (Option.any_eq_true _ _).1 hreached with ⟨s, hs, hany⟩
  rcases List.any_eq_true.1 hany with ⟨row, hrow, hsettled⟩
  have hstatus : row.status = .settled := by simpa using hsettled
  exact ⟨s, hs, row, hrow, hstatus,
    (settlement_paid_once sampleConfig adoptedPayment s hs row hrow).2 hstatus⟩

/-! ## Replays side by side -/

/-- The step from `s` to `s'` broadcasts `tx`. -/
def Broadcasts (s s' : State) (tx : Transaction) : Prop :=
  tx ∈ s'.store.transactions ∧ Table.lookup Transaction.hash s.store.transactions tx.hash = none

/-- Only the answer to `sendTransaction` adds a transaction. -/
theorem attemptStep_transactions {cfg : Config} {now : Time} {entity : SettlementRow} {stage : Stage}
    {reply : Reply} {store store' : Store} {flow : Flow}
    (h : attemptStep cfg now entity stage reply store = some (store', flow)) :
    store'.transactions = store.transactions ∨
      ∃ amountWei hash, stage = .sendTransaction amountWei ∧
        store' = store.broadcast { hash, settlementId := entity.id, amountWei, fate := .pending } := by
  cases attempts_of_attemptStep h with
  | @broadcast amountWei hash _ => exact Or.inr ⟨amountWei, hash, rfl, rfl⟩
  | accrued => exact Or.inl (accrue_fields store entity).2
  | outcomeSaved => exact Or.inl (emitOutcome_fields (store.save entity) entity).2
  | _ => exact Or.inl rfl

/-- What a resumed process does to the chain. -/
theorem resumes_transactions {cfg : Config} {s s' : State} {pid : Pid} {now : Time} {reply : Reply}
    {p : Process} (h : Resumes cfg s pid now p reply s') :
    s'.store.transactions = s.store.transactions ∨
      ∃ caller begun entity amountWei hash,
        p = .attempt caller begun entity (.sendTransaction amountWei) ∧
        s'.store = s.store.broadcast
          { hash, settlementId := entity.id, amountWei, fate := .pending } := by
  cases h with
  | scanned => exact Or.inl (by simp)
  | @attempted caller begun entity stage reply store' flow hattempt =>
      rcases attemptStep_transactions hattempt with hsame | ⟨amountWei, hash, rfl, hstore⟩
      · exact Or.inl (by simpa using hsame)
      · exact Or.inr ⟨caller, begun, entity, amountWei, hash, rfl, by simpa using hstore⟩
  | _ => exact Or.inl rfl

/-- A transaction is broadcast by an attempt at `sendTransaction`, for its own settlement. -/
theorem exists_sender_of_broadcasts {cfg : Config} {a : Action} {s s' : State} {tx : Transaction}
    (hacts : Acts cfg s a s') (hnew : Broadcasts s s' tx) :
    ∃ pid caller now entity amountWei, a.pid = some pid ∧
      s.process pid = some (.attempt caller now entity (.sendTransaction amountWei)) ∧
        tx.settlementId = entity.id := by
  rcases hnew with ⟨hmem, hfresh⟩
  have hnot : tx ∉ s.store.transactions := fun hold =>
    Table.lookup_eq_none.1 hfresh tx hold rfl
  have hsame : s'.store.transactions ≠ s.store.transactions := by
    intro hEq
    rw [hEq] at hmem
    exact hnot hmem
  cases hacts with
  | @resume pid _ _ _ _ hp hresumes =>
      rcases resumes_transactions hresumes with hEq |
        ⟨caller, begun, entity, amountWei, hash, rfl, hstore⟩
      · exact absurd hEq hsame
      · rw [hstore] at hmem
        rcases Table.mem_put hmem with rfl | ⟨hold, _⟩
        · exact ⟨pid, caller, begun, entity, amountWei, rfl, hp, rfl⟩
        · exact absurd hold hnot
  | @evolve _ fate old hold _ =>
      -- the hash of a transaction that moves on is not new
      rcases Table.mem_put hmem with rfl | ⟨hkept, _⟩
      · exact absurd rfl (Table.lookup_eq_none.1 hfresh old (Table.mem_of_lookup hold))
      · exact absurd hkept hnot
  | _ => exact absurd rfl hsame

theorem Invariant.noneLive_of_sender {s : State} (hinv : Invariant s) {pid : Pid} {caller : Caller}
    {now : Time} {entity : SettlementRow} {amountWei : Int}
    (hp : s.process pid = some (.attempt caller now entity (.sendTransaction amountWei))) :
    NoneLive s.store.transactions entity.id := by
  have hsound := hinv.processes pid _ hp
  cases caller with
  | settleBatch => exact Busy.sound hsound
  | replay => exact Busy.sound hsound
  | processDue rest => exact Busy.sound hsound.1

/-- As long as no replay is let through while another replay of the same settlement is under way,
and storage writes succeed, any interleaving of first attempts, ticks and replays broadcasts a
transaction only when all earlier ones of the settlement have failed, and no settlement is paid
twice. -/
theorem replay_pays_once (cfg : Config) (as : List Action) (s : State)
    (hrun : run (guarded NoSecondReplay (step cfg)) as initial = some s) :
    (∀ id, (minedOf s.store id).length ≤ 1) ∧
      ∀ a s' tx, step cfg a s = some s' → Broadcasts s s' tx →
        ∀ old ∈ s.store.transactions, old.settlementId = tx.settlementId →
          old.fate.live = false := by
  have hinv := run_noSecondReplay_invariant hrun
  refine ⟨hinv.length_minedOf, ?_⟩
  -- whoever sends has just seen that the earlier ones have failed
  intro a s' tx hstep hnew old hold hid
  rcases exists_sender_of_broadcasts (acts_of_step hstep) hnew with
    ⟨pid, caller, now, entity, amountWei, _, hp, htx⟩
  exact hinv.noneLive_of_sender hp old hold (hid.trans htx)

def refused : Failure where
  code := "SERVER_ERROR"
  message := "could not coalesce error"

def reverted : Failure where
  code := "CALL_EXCEPTION"
  message := "transaction execution reverted"

/-- A first attempt that was never broadcast; with one attempt allowed the row is dead-lettered. -/
def deadLettered : List Action :=
  [.settleBatch 0 7 sampleInput, .resume 0 0 .done, .resume 0 0 (.gas none),
    .resume 0 0 (.failed refused), .resume 0 0 .done]

/-- Two replays, the second one let through after the first has ended in a revert, with a tick
between them; the second is about to send. -/
def replaysInTurn : List Action :=
  deadLettered ++
    [.replay 1 7, .replay 2 7, .resume 1 10 .done, .resume 1 10 (.gas none), .resume 1 10 (.sent 100),
      .resume 1 10 .done, .processDue 3 20, .resume 3 20 .done, .evolve 100 .reverted,
      .resume 1 10 (.failed reverted), .resume 1 10 .done, .resume 2 30 .done, .resume 2 30 .done,
      .resume 2 30 (.gas none)]

theorem replay_pays_once_replaysInTurn :
    ∃ s s' tx, run (guarded NoSecondReplay (step sampleConfig)) replaysInTurn initial = some s ∧
      step sampleConfig (.resume 2 30 (.sent 101)) s = some s' ∧ Broadcasts s s' tx ∧
      (minedOf s.store 7).length ≤ 1 ∧
      ∀ old ∈ s.store.transactions, old.settlementId = tx.settlementId → old.fate.live = false := by
  have hreached : ((run (guarded NoSecondReplay (step sampleConfig)) replaysInTurn initial).any
      fun s => (step sampleConfig (.resume 2 30 (.sent 101)) s).any fun s' =>
        s'.store.transactions.any fun tx =>
          Table.lookup Transaction.hash s.store.transactions tx.hash = none) = true := by
    decide +kernel
  rcases (Option.any_eq_true _ _).1 hreached with ⟨s, hs, hnext⟩
  rcases (Option.any_eq_true _ _).1 hnext with ⟨s', hs', hany⟩
  rcases List.any_eq_true.1 hany with ⟨tx, htx, hfresh⟩
  have hnew : Broadcasts s s' tx := ⟨htx, by simpa using hfresh⟩
  have hsafe := replay_pays_once sampleConfig replaysInTurn s hs
  exact ⟨s, s', tx, hs, hs', hnew, hsafe.1 7, hsafe.2 _ s' tx hs' hnew⟩

/-- Two replays of the same settlement that both read the row before either has written it. -/
def overlappingReplays : List Action :=
  deadLettered ++
    [.replay 1 7, .replay 2 7, .resume 1 10 .done, .resume 2 10 .done, .resume 1 10 (.gas none),
      .resume 2 10 (.gas none), .resume 1 10 (.sent 100), .resume 2 10 (.sent 101),
      .evolve 100 (.mined 3), .evolve 101 (.mined 3)]

/-- Without the condition on replays the payee is paid twice, though storage works throughout. -/
theorem overlapping_replays_pay_twice :
    ¬ ∀ (cfg : Config) (as : List Action) (s : State),
      run (guarded (fun a s => storageFailure a s = false) (step cfg)) as initial = some s →
        ∀ id, (minedOf s.store id).length ≤ 1 := by
  intro hclaim
  have hreached : ((run (guarded (fun a s => storageFailure a s = false) (step sampleConfig))
      overlappingReplays initial).any fun s => (minedOf s.store 7).length = 2) = true := by
    decide +kernel
  rcases (Option.any_eq_true _ _).1 hreached with ⟨s, hs, hpaid⟩
  have hone := hclaim sampleConfig overlappingReplays s hs 7
  have htwo : (minedOf s.store 7).length = 2 := by simpa using hpaid
  omega

end Settlement
end PaymentRail
