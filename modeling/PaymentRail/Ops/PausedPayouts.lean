import PaymentRail.Escrow.ReleaseBounds
import PaymentRail.Settlement.PaidOnce
import PaymentRail.Settlement.SchedulerSafety

/-!
# PausedPayouts — payouts and the settlement pause

Everything that pays a payee runs on one instance here: the batch scheduler, the retry queue,
`settleBatch` and replays are the machine of `BatchScheduler`, releases are calls of `Escrow`.  The
two run side by side and share the switch `isPaused(SETTLEMENT)`.

Each of them looks at the switch when it begins with a payout, except the retry queue: `processDue`
looks at it once, before it reads the rows that are due.  A run that has been let through attempts
all of them, whatever the switch says by then (`paused_queue_pays`).  As long as no retry run goes on
to another row while the switch is set, a payout that is broadcast during a pause was in hand when
the pause came (`payouts_begun_before_pause`).
-/

namespace PaymentRail
namespace Payouts

open Machine Collections
open Receipts (Keccak)
open Settlement (Pid SettlementId)

/-! ## One instance -/

structure Config where
  scheduler : BatchScheduler.Config
  escrow : Escrow.Config

structure Instance where
  scheduler : BatchScheduler.State
  escrow : Calls Escrow.Store Escrow.Process Escrow.Answer

def initial : Instance where
  scheduler := BatchScheduler.initial
  escrow := .start .empty

inductive Act where
  | scheduler (a : BatchScheduler.Action)
  | escrow (m : Move Escrow.Request Escrow.Reply Escrow.Event)
  /-- The switch is set, with the reason of the pause, or lifted. -/
  | setPaused (reason : Option String)

/-- The switch of one of the two machines alone. -/
def Act.isSwitch : Act → Bool
  | .scheduler (.other (.setPaused _)) => true
  | .escrow (.external (.pauseSettlement _)) => true
  | _ => false

namespace Instance

def settlement (s : Instance) : Settlement.State := s.scheduler.settlement

/-- `isPaused(SETTLEMENT)` -/
def isPaused (s : Instance) : Bool := s.settlement.paused

def setPaused (s : Instance) (reason : Option String) : Instance where
  scheduler := { s.scheduler with settlement := { s.settlement with paused := reason.isSome } }
  escrow := { s.escrow with store := { s.escrow.store with settlementPaused := reason } }

end Instance

def step (cfg : Config) (keccak : Keccak) (m : Act) (s : Instance) : Option Instance :=
  if m.isSwitch = true then none
  else
    match m with
    | .scheduler a =>
        (BatchScheduler.step cfg.scheduler keccak a s.scheduler).map fun scheduler =>
          { s with scheduler }
    | .escrow m =>
        ((Escrow.service cfg.escrow).step m s.escrow).map fun escrow => { s with escrow }
    | .setPaused reason => some (s.setPaused reason)

/-! ## Payouts -/

/-- The settlement a process has begun with; a replay that reads its row and a retry run that reads
the due rows have not begun with any. -/
def inProcess : Settlement.Process → Option SettlementId
  | .insert entity => some entity.id
  | .attempt _ _ entity _ => some entity.id
  | _ => none

/-- The process is handling the settlement. -/
def Handles (s : Settlement.State) (pid : Pid) (id : SettlementId) : Prop :=
  ∃ p, s.process pid = some p ∧ inProcess p = some id

/-- The process of a release that has passed its checks. -/
def isRelease (p : Escrow.Process) : Bool := p.asking || p.paying

/-- The call is handling a release. -/
def Releases (c : Calls Escrow.Store Escrow.Process Escrow.Answer) (call : CallId) : Prop :=
  ∃ p, c.process call = some p ∧ isRelease p = true

/-- The process of the settlement machine that takes the step. -/
def Act.pid : Act → Option Pid
  | .scheduler (.resume _ _ _) => some BatchScheduler.schedulerPid
  | .scheduler (.other a) => a.pid
  | _ => none

/-- Whatever `settleBatch` transaction the step from `u` to `u'` broadcasts, the settlement or the
release it is for was in hand in `s`, by the same process. -/
structure Begun (s : Instance) (m : Act) (u u' : Instance) : Prop where
  settlements : ∀ tx, Settlement.Broadcasts u.settlement u'.settlement tx →
    ∃ pid, m.pid = some pid ∧ Handles s.settlement pid tx.settlementId
  releases : ∀ tx ∈ u'.escrow.store.transactions,
    Table.lookup Escrow.Transaction.hash u.escrow.store.transactions tx.hash = none →
      tx.call.payout? ≠ none →
        ∃ call reply, m = .escrow (.resume call reply) ∧ Releases s.escrow call

/-! ## The retry queue -/

/-- With this answer a retry run goes on to a due row: its first one after the scan, or the next one
after an attempt has been saved. -/
def takesDue (cfg : Settlement.Config) (store : Settlement.Store) (reply : Settlement.Reply) :
    Settlement.Process → Bool
  | .findDueRetries tick =>
      reply = .done && !(Settlement.findDueRetries store tick cfg.batchSize).isEmpty
  | .attempt (.processDue (_ :: _)) _ _ stage =>
      reply = .done && (stage = .savePending || stage = .saveOutcome)
  | _ => false

/-- The step lets a retry run go on to a due row although settlements are paused. -/
def drainsPaused (cfg : Config) (m : Act) (s : Instance) : Bool :=
  match m with
  | .scheduler (.other (.resume pid _ reply)) =>
      s.isPaused &&
        (s.settlement.process pid).any (takesDue cfg.scheduler.settlement s.settlement.store reply)
  | _ => false

/-- While settlements are paused, no retry run goes on to a due row. -/
def QueueWaits (cfg : Config) (m : Act) (s : Instance) : Prop := drainsPaused cfg m s = false

instance (cfg : Config) (m : Act) (s : Instance) : Decidable (QueueWaits cfg m s) :=
  inferInstanceAs (Decidable (_ = false))

/-! ## While the switch is set -/

section Settlements

variable {cfg : Settlement.Config} {s s' : Settlement.State} {pid : Pid} {id : SettlementId}

/-- A step of a process, other than one that goes on to a due row, begins with no settlement while
the switch is set. -/
theorem handles_of_resumes {now : Settlement.Time} {reply : Settlement.Reply}
    {p : Settlement.Process} (h : Settlement.Resumes cfg s pid now p reply s')
    (hp : s.process pid = some p) (hpaused : s.paused = true)
    (hdue : takesDue cfg s.store reply p = false) {q : Pid} (hq : Handles s' q id) :
    Handles s q id := by
  rcases hq with ⟨p', hp', hid⟩
  by_cases hpid : q = pid
  · subst hpid
    refine ⟨p, hp, ?_⟩
    have hturns := Settlement.turns_of_resumes h hp'
    generalize s'.store = store' at hturns
    cases hturns with
    | inserted _ =>
        simp only [inProcess, Settlement.startAttempt_id] at hid
        exact hid
    | replayed _ _ _ hopen =>
        rw [hpaused] at hopen
        cases hopen
    | scanned hrows => simp [takesDue, hrows] at hdue
    | awaits hattempts =>
        simp only [inProcess, Settlement.attempts_id hattempts] at hid
        exact hid
    | nextDue hattempts =>
        -- an attempt returns after one of its two last saves
        cases hattempts with
        | pendingSaved => simp [takesDue] at hdue
        | outcomeSaved => simp [takesDue] at hdue
  · rw [Settlement.resumes_others h hpid] at hp'
    exact ⟨p', hp', hid⟩

theorem handles_of_acts {a : Settlement.Action} (h : Settlement.Acts cfg s a s')
    (hpaused : s.paused = true)
    (hdue : ∀ pid now reply p, a = .resume pid now reply → s.process pid = some p →
      takesDue cfg s.store reply p = false) (hq : Handles s' pid id) : Handles s pid id := by
  cases h with
  | settleBatch _ hopen _ =>
      rw [hpaused] at hopen
      cases hopen
  | processDue _ _ hopen =>
      rw [hpaused] at hopen
      cases hopen
  | @replay q rid hfree =>
      rcases hq with ⟨p', hp', hid⟩
      by_cases hpid : pid = q
      · subst hpid
        rw [Settlement.process_spawn_self] at hp'
        cases hp'
        cases hid
      · rw [Settlement.process_spawn_of_ne _ _ _ hpid] at hp'
        exact ⟨p', hp', hid⟩
  | @resume q now reply p _ hp hresumes =>
      exact handles_of_resumes hresumes hp hpaused (hdue q now reply p rfl hp) hq
  | evolve _ _ => exact hq
  | setPaused => exact hq

theorem paused_of_resumes {now : Settlement.Time} {reply : Settlement.Reply} {p : Settlement.Process}
    (h : Settlement.Resumes cfg s pid now p reply s') : s'.paused = s.paused := by
  have hnextDue : ∀ (t : Settlement.State) rest begun, (t.nextDue pid begun rest).paused = t.paused := by
    intro t rest begun
    cases rest with
    | _ => rfl
  cases h with
  | scanned => exact hnextDue s _ _
  | @attempted caller begun entity stage reply store' flow _ =>
      cases flow with
      | await next stage' => rfl
      | returned =>
          cases caller with
          | processDue rest => exact hnextDue _ rest begun
          | _ => rfl
      | thrown error =>
          cases caller with
          | _ => rfl
  | _ => rfl

theorem paused_of_acts {a : Settlement.Action} (h : Settlement.Acts cfg s a s')
    (ha : ∀ paused, a ≠ .setPaused paused) : s'.paused = s.paused := by
  cases h with
  | resume _ hresumes => exact paused_of_resumes hresumes
  | @setPaused paused => exact absurd rfl (ha paused)
  | _ => rfl

end Settlements

section Scheduler

open BatchScheduler (schedulerPid)

variable {cfg : BatchScheduler.Config} {keccak : Keccak} {s s' : BatchScheduler.State}
  {id : SettlementId}

/-- `settleBatch` refuses the chunk. -/
theorem startChunk_paused (hpaused : s.settlement.paused = true) (escrowId : Strings.Text)
    (chunk : List Receipts.PaymentReceipt) : s.startChunk cfg keccak id escrowId chunk = none := by
  unfold BatchScheduler.State.startChunk
  split
  · simp [Settlement.step, hpaused]
  · rfl

/-- The loops of a tick leave the settlements alone. -/
theorem nextGroup_paused (hpaused : s.settlement.paused = true) (now : Settlement.Time)
    (result : BatchScheduler.BatchRunResult)
    (groups : List (Strings.Text × List Receipts.PaymentReceipt)) :
    (s.nextGroup cfg keccak id now result groups).settlement = s.settlement := by
  induction groups generalizing result with
  | nil => rfl
  | cons group groups ih =>
      unfold BatchScheduler.State.nextGroup
      split
      · exact ih result
      · simp only [BatchScheduler.State.settleChunk, startChunk_paused hpaused]
        exact ih _

theorem nextChunk_paused (hpaused : s.settlement.paused = true) (work : BatchScheduler.Work) :
    (s.nextChunk cfg keccak id work).settlement = s.settlement := by
  unfold BatchScheduler.State.nextChunk
  split
  · exact nextGroup_paused hpaused _ _ _
  · simp only [BatchScheduler.State.settleChunk, startChunk_paused hpaused]
    exact nextGroup_paused hpaused _ _ _

/-- What a step of the scheduler does to the settlements while the switch is set: nothing, a step of
the call the tick is waiting for, or what happens beside it. -/
inductive Passes (cfg : BatchScheduler.Config) (s : BatchScheduler.State) :
    BatchScheduler.Action → Settlement.State → Prop
  | nothing {a : BatchScheduler.Action} : Passes cfg s a s.settlement
  | own {now : Settlement.Time} {reply : Settlement.Reply} {id : SettlementId}
      {p : Settlement.Process} {settlement : Settlement.State}
      (hp : s.settlement.process schedulerPid = some p)
      (htick : (∃ entity, p = .insert entity) ∨
        ∃ begun entity stage, p = .attempt .settleBatch begun entity stage)
      (h : Settlement.Resumes cfg.settlement s.settlement schedulerPid now p reply settlement) :
      Passes cfg s (.resume now reply id) settlement
  | other {a : Settlement.Action} {settlement : Settlement.State}
      (h : Settlement.Acts cfg.settlement s.settlement a settlement) : Passes cfg s (.other a) settlement

theorem passes_of_step {a : BatchScheduler.Action}
    (hinv : BatchScheduler.Invariant False keccak s) (hpaused : s.settlement.paused = true)
    (hstep : BatchScheduler.step cfg keccak a s = some s') : Passes cfg s a s'.settlement := by
  cases a with
  | create id createdAt dto =>
      simp only [BatchScheduler.step] at hstep
      split at hstep
      · cases hstep
        exact .nothing
      · cases hstep
  | runOnce now =>
      simp only [BatchScheduler.step] at hstep
      split at hstep
      · cases hstep
        exact .nothing
      · cases hstep
        exact .nothing
  | other a =>
      simp only [BatchScheduler.step] at hstep
      split at hstep
      · cases hstep
      · split at hstep
        · rename_i settlement hinner
          cases hstep
          exact .other (Settlement.acts_of_step hinner)
        · cases hstep
  | resume now reply id =>
      simp only [BatchScheduler.step] at hstep
      cases htick : s.tick with
      | idle =>
          rw [htick] at hstep
          simp [BatchScheduler.resume] at hstep
      | findUnsettled begun =>
          rw [htick] at hstep
          cases reply with
          | done =>
              simp only [BatchScheduler.resume] at hstep
              cases hstep
              rw [nextGroup_paused hpaused]
              exact .nothing
          | failed error =>
              simp only [BatchScheduler.resume] at hstep
              cases hstep
              exact .nothing
          | gas fee => simp [BatchScheduler.resume] at hstep
          | sent hash => simp [BatchScheduler.resume] at hstep
      | markSettled chunk sid work =>
          rw [htick] at hstep
          cases reply with
          | done =>
              simp only [BatchScheduler.resume] at hstep
              cases hstep
              rw [nextChunk_paused]
              · exact .nothing
              · exact hpaused
          | failed error =>
              simp only [BatchScheduler.resume, BatchScheduler.State.leave] at hstep
              cases hstep
              rw [nextGroup_paused hpaused]
              exact .nothing
          | gas fee => simp [BatchScheduler.resume] at hstep
          | sent hash => simp [BatchScheduler.resume] at hstep
      | settleBatch chunk sid work =>
          rw [htick] at hstep
          rcases hinv.tickAt htick with ⟨_, p, hp, hcall⟩
          have hkind : (∃ entity, p = .insert entity) ∨
              ∃ begun entity stage, p = .attempt .settleBatch begun entity stage := by
            rcases hcall.cases with ⟨entity, rfl⟩ | ⟨begun, entity, stage, rfl, _⟩
            · exact Or.inl ⟨entity, rfl⟩
            · exact Or.inr ⟨begun, entity, stage, rfl⟩
          rcases BatchScheduler.resume_settleBatch_cases hp hstep with ⟨settlement, hresumes, hcases⟩
          have hstill : settlement.paused = true := (paused_of_resumes hresumes).trans hpaused
          have hsettlement : s'.settlement = settlement := by
            rcases hcases with ⟨_, rfl⟩ | ⟨_, _, rfl⟩ | ⟨_, _, rfl⟩
            · rfl
            · exact nextGroup_paused hstill _ _ _
            · rfl
          rw [hsettlement]
          exact .own hp hkind hresumes

end Scheduler

section Releases

variable {cfg : Escrow.Config} {c c' : Calls Escrow.Store Escrow.Process Escrow.Answer}
  {m : Move Escrow.Request Escrow.Reply Escrow.Event}

/-- `open` and `close` send no payout. -/
def Quiet : Escrow.Process → Prop
  | .sendCall _ call => call.payout? = none
  | _ => True

theorem quiet_of_resumes {call : CallId} {store store' : Escrow.Store} {p : Escrow.Process}
    {reply : Escrow.Reply} {flow : Flow Escrow.Process Escrow.Answer}
    (h : Escrow.Resumes cfg call store p reply store' flow) : flow.Awaits Quiet := by
  cases h with
  | waits h =>
      cases h with
      | _ => trivial
  | inserts _ => exact Escrow.afterOpen_awaits (fun _ _ hcall => hcall) cfg _
  | commits _ => exact Escrow.afterOpen_awaits (fun _ _ hcall => hcall) cfg _
  | saves => exact Escrow.afterSave_awaits (fun _ _ hcall => hcall) cfg _ _ _
  | insertsRelease _ => exact Escrow.afterInsert_of (A := Quiet) trivial trivial cfg
  | _ => trivial

theorem quiet_outline (cfg : Escrow.Config) :
    Outline (Escrow.service cfg) (fun _ => True) (fun _ _ p => Quiet p) (fun _ _ => True) := by
  rw [← Service.restrict_true (Escrow.service cfg)]
  refine Escrow.outline_of (fun _ _ _ => trivial) ?_ ?_ ?_
  · intro id r s p _ hp
    refine ⟨?_, fun _ _ _ => trivial⟩
    cases hp with
    | _ => trivial
  · intro id p i s s' flow _ _ _ h
    exact ⟨trivial, quiet_of_resumes h,
      fun k q _ hq _ => ⟨hq, flow.awaits_of_forall fun _ => trivial⟩⟩
  · exact fun e s s' _ _ => ⟨trivial, fun k q hq => hq⟩

/-- No call becomes a release on its way. -/
theorem isRelease_of_resumes {call : CallId} {store store' : Escrow.Store} {p : Escrow.Process}
    {reply : Escrow.Reply} {flow : Flow Escrow.Process Escrow.Answer}
    (h : Escrow.Resumes cfg call store p reply store' flow) :
    flow.Awaits fun q => isRelease q = true → isRelease p = true := by
  have hsends : ∀ session call, Escrow.HubCall.payout? call = none →
      isRelease (.sendCall session call) = true → isRelease p = true := by
    intro session call _ hnot
    cases hnot
  cases h with
  | waits h =>
      cases h with
      | refused _ => exact fun _ => rfl
      | unsent => exact fun _ => rfl
      | mined _ => exact fun _ => rfl
      | gaveUp => exact fun _ => rfl
      | _ => exact id
  | ends h => trivial
  | inserts _ => exact Escrow.afterOpen_awaits hsends cfg _
  | commits _ => exact Escrow.afterOpen_awaits hsends cfg _
  | saves => exact Escrow.afterSave_awaits hsends cfg _ _ _
  | locks _ => exact id
  | exceeds => trivial
  | sendsCall _ => exact id
  | failed => trivial
  | claims => trivial
  | _ => exact fun _ => rfl

theorem releases_of_step {call : CallId} (hpaused : c.store.settlementPaused ≠ none)
    (hstep : (Escrow.service cfg).step m c = some c') (h : Releases c' call) : Releases c call := by
  cases Service.steps_of_step hstep with
  | call k r hnew hunanswered =>
      rcases h with ⟨p, hp, hrelease⟩
      by_cases hk : k = call
      · subst hk
        -- a release that is begun now finds the switch set
        cases Escrow.starts_of_start (Calls.process_go_self.1 hp) with
        | release hopen _ _ => exact absurd hopen hpaused
        | _ => cases hrelease
      · rw [Calls.process_go_of_ne hk] at hp
        exact ⟨p, hp, hrelease⟩
  | resume k p i store flow hp hresume =>
      rcases h with ⟨q, hq, hrelease⟩
      by_cases hk : k = call
      · subst hk
        have hawaits := isRelease_of_resumes (Escrow.resumes_of_resume hresume)
        rw [Calls.process_go_self.1 hq] at hawaits
        exact ⟨p, hp, hawaits hrelease⟩
      · rw [Calls.process_go_of_ne hk] at hq
        exact ⟨q, hq, hrelease⟩
  | external e store hexternal => exact h

/-- What a resumed call does to the chain. -/
theorem resumes_broadcasts {call : CallId} {store store' : Escrow.Store} {p : Escrow.Process}
    {reply : Escrow.Reply} {flow : Flow Escrow.Process Escrow.Answer}
    (h : Escrow.Resumes cfg call store p reply store' flow) :
    store'.transactions = store.transactions ∨ ∃ tx, store' = store.broadcast tx ∧
      ((∃ session, p = .sendCall session tx.call) ∨ ∃ release, p = .payOut release) := by
  cases h with
  | sendsCall _ => exact Or.inr ⟨_, rfl, Or.inl ⟨_, rfl⟩⟩
  | paysOut _ => exact Or.inr ⟨_, rfl, Or.inr ⟨_, rfl⟩⟩
  | _ => exact Or.inl rfl

/-- A payout is broadcast by a release. -/
theorem exists_release_of_payout (hquiet : ∀ call p, c.process call = some p → Quiet p)
    (hstep : (Escrow.service cfg).step m c = some c') {tx : Escrow.Transaction}
    (htx : tx ∈ c'.store.transactions)
    (hfresh : Table.lookup Escrow.Transaction.hash c.store.transactions tx.hash = none)
    (hpayout : tx.call.payout? ≠ none) :
    ∃ call reply, m = .resume call reply ∧ Releases c call := by
  have hnot : tx ∉ c.store.transactions := fun hold => Table.lookup_eq_none.1 hfresh tx hold rfl
  cases Service.steps_of_step hstep with
  | call k r hnew hunanswered =>
      have hstore : ((Escrow.service cfg).start r c.store).1 = c.store := Escrow.start_store r c.store
      rw [Calls.store_go, hstore] at htx
      exact absurd htx hnot
  | resume k p i store flow hp hresume =>
      rw [Calls.store_go] at htx
      rcases resumes_broadcasts (Escrow.resumes_of_resume hresume) with hsame |
        ⟨sent, rfl, hsender⟩
      · rw [hsame] at htx
        exact absurd htx hnot
      · rcases Table.mem_put htx with rfl | ⟨hold, _⟩
        · rcases hsender with ⟨session, rfl⟩ | ⟨release, rfl⟩
          · exact absurd (hquiet k _ hp) hpayout
          · exact ⟨k, i, rfl, _, hp, rfl⟩
        · exact absurd hold hnot
  | external e store hexternal =>
      cases Escrow.happens_of_external hexternal with
      | @evolve old fate hlookup _ =>
          -- the hash of a transaction that moves on is not new
          rcases Table.mem_put htx with rfl | ⟨hold, _⟩
          · rw [hlookup] at hfresh
            cases hfresh
          · exact absurd hold hnot
      | _ => exact absurd htx hnot

theorem settlementPaused_of_step (hstep : (Escrow.service cfg).step m c = some c')
    (hm : (Act.escrow m).isSwitch = false) :
    c'.store.settlementPaused = c.store.settlementPaused := by
  cases Service.steps_of_step hstep with
  | call k r hnew hunanswered =>
      have hstore : ((Escrow.service cfg).start r c.store).1 = c.store := Escrow.start_store r c.store
      rw [Calls.store_go, hstore]
  | resume k p i store flow hp hresume =>
      rw [Calls.store_go]
      cases Escrow.resumes_of_resume hresume with
      | _ => rfl
  | external e store hexternal =>
      cases Escrow.happens_of_external hexternal with
      | pauseSettlement reason => cases hm
      | _ => rfl

end Releases

/-! ## Runs -/

section Runs

variable {cfg : Config} {keccak : Keccak} {m : Act} {s s' : Instance}

/-- Where a step takes place. -/
inductive Steps (cfg : Config) (keccak : Keccak) (s : Instance) : Act → Instance → Prop
  | scheduler {a : BatchScheduler.Action} {scheduler : BatchScheduler.State}
      (ha : (Act.scheduler a).isSwitch = false)
      (h : BatchScheduler.step cfg.scheduler keccak a s.scheduler = some scheduler) :
      Steps cfg keccak s (.scheduler a) { s with scheduler }
  | escrow {m : Move Escrow.Request Escrow.Reply Escrow.Event}
      {escrow : Calls Escrow.Store Escrow.Process Escrow.Answer}
      (hm : (Act.escrow m).isSwitch = false)
      (h : (Escrow.service cfg.escrow).step m s.escrow = some escrow) :
      Steps cfg keccak s (.escrow m) { s with escrow }
  | setPaused {reason : Option String} : Steps cfg keccak s (.setPaused reason) (s.setPaused reason)

theorem steps_of_step (h : step cfg keccak m s = some s') : Steps cfg keccak s m s' := by
  unfold step at h
  split at h
  · cases h
  · rename_i hswitch
    have hfalse : m.isSwitch = false := by simpa using hswitch
    cases m with
    | scheduler a =>
        rcases Option.map_eq_some_iff.1 h with ⟨scheduler, hinner, rfl⟩
        exact .scheduler hfalse hinner
    | escrow m =>
        rcases Option.map_eq_some_iff.1 h with ⟨escrow, hinner, rfl⟩
        exact .escrow hfalse hinner
    | setPaused reason =>
        cases h
        exact .setPaused

/-- What holds of both machines in every run. -/
structure Sound (keccak : Keccak) (s : Instance) : Prop where
  scheduler : BatchScheduler.Invariant False keccak s.scheduler
  quiet : s.escrow.Annotated (fun _ => True) (fun _ _ p => Quiet p) (fun _ _ => True)

theorem initial_sound (keccak : Keccak) : Sound keccak initial where
  scheduler := BatchScheduler.initial_invariant False keccak
  quiet := .start trivial

theorem sound_of_step (hs : Sound keccak s) (h : step cfg keccak m s = some s') : Sound keccak s' := by
  cases steps_of_step h with
  | scheduler _ hinner => exact ⟨BatchScheduler.step_invariant hs.scheduler nofun hinner, hs.quiet⟩
  | escrow _ hinner => exact ⟨hs.scheduler, (quiet_outline cfg.escrow).step _ _ _ hs.quiet hinner⟩
  | @setPaused reason =>
      have hswitch : Settlement.step cfg.scheduler.settlement (.setPaused reason.isSome) s.settlement =
          some { s.settlement with paused := reason.isSome } := rfl
      have hpid : (Settlement.Action.setPaused reason.isSome).pid ≠ some BatchScheduler.schedulerPid :=
        nofun
      exact ⟨BatchScheduler.other_invariant hs.scheduler hpid hswitch,
        ⟨trivial, hs.quiet.process, hs.quiet.apart⟩⟩

/-- The switch is set in both machines. -/
def Paused (s : Instance) : Prop :=
  s.isPaused = true ∧ s.escrow.store.settlementPaused ≠ none

theorem Sound.handles (hs : Sound keccak s) (hpaused : Paused s) (hqueue : QueueWaits cfg m s)
    (h : step cfg keccak m s = some s') {pid : Pid} {id : SettlementId}
    (hpid : Handles s'.settlement pid id) : Handles s.settlement pid id := by
  cases steps_of_step h with
  | escrow _ _ => exact hpid
  | setPaused => exact hpid
  | @scheduler a scheduler _ hinner =>
      have hpasses := passes_of_step hs.scheduler hpaused.1 hinner
      have hpid' : Handles scheduler.settlement pid id := hpid
      generalize scheduler.settlement = settlement at hpasses hpid'
      cases hpasses with
      | nothing => exact hpid'
      | own hp htick hresumes =>
          refine handles_of_resumes hresumes hp hpaused.1 ?_ hpid'
          rcases htick with ⟨entity, rfl⟩ | ⟨begun, entity, stage, rfl⟩
          · rfl
          · rfl
      | other hacts =>
          refine handles_of_acts hacts hpaused.1 ?_ hpid'
          rintro pid now reply p rfl hp
          have hwaits : drainsPaused cfg (.scheduler (.other (.resume pid now reply))) s = false := hqueue
          have hprocess : s.settlement.process pid = some p := hp
          simpa [drainsPaused, hpaused.1, hprocess] using hwaits

theorem Sound.paused (hs : Sound keccak s) (hpaused : Paused s) (hm : m ≠ .setPaused none)
    (h : step cfg keccak m s = some s') : Paused s' := by
  cases steps_of_step h with
  | escrow hswitch hinner =>
      refine ⟨hpaused.1, ?_⟩
      rw [settlementPaused_of_step hinner hswitch]
      exact hpaused.2
  | @setPaused reason =>
      cases reason with
      | none => exact absurd rfl hm
      | some reason => exact ⟨rfl, nofun⟩
  | @scheduler a scheduler hswitch hinner =>
      refine ⟨?_, hpaused.2⟩
      have hpasses := passes_of_step hs.scheduler hpaused.1 hinner
      suffices hsame : scheduler.settlement.paused = s.settlement.paused from hsame.trans hpaused.1
      generalize scheduler.settlement = settlement at hpasses
      cases hpasses with
      | nothing => rfl
      | own _ _ hresumes => exact paused_of_resumes hresumes
      | other hacts =>
          refine paused_of_acts hacts ?_
          rintro paused rfl
          cases hswitch

/-- The switch is set in `u`, and whatever is in hand there was in hand in `s`. -/
structure Since (keccak : Keccak) (s u : Instance) : Prop where
  sound : Sound keccak u
  paused : Paused u
  settlements : ∀ pid id, Handles u.settlement pid id → Handles s.settlement pid id
  releases : ∀ call, Releases u.escrow call → Releases s.escrow call

theorem Since.next {u u' : Instance} (hu : Since keccak s u) (hqueue : QueueWaits cfg m u)
    (hm : m ≠ .setPaused none) (h : step cfg keccak m u = some u') : Since keccak s u' where
  sound := sound_of_step hu.sound h
  paused := hu.sound.paused hu.paused hm h
  settlements := fun pid id hpid => hu.settlements pid id (hu.sound.handles hu.paused hqueue h hpid)
  releases := by
    intro call hcall
    refine hu.releases call ?_
    cases steps_of_step h with
    | scheduler _ _ => exact hcall
    | setPaused => exact hcall
    | escrow _ hinner => exact releases_of_step hu.paused.2 hinner hcall

theorem Since.later {u u' : Instance} {after : List Act} (hu : Since keccak s u)
    (hheld : .setPaused none ∉ after)
    (h : run (guarded (QueueWaits cfg) (step cfg keccak)) after u = some u') : Since keccak s u' := by
  induction after generalizing u with
  | nil =>
      cases h
      exact hu
  | cons m after ih =>
      rcases run_cons_eq_some.1 h with ⟨v, hv, hrest⟩
      rcases guarded_eq_some.1 hv with ⟨hqueue, hstep⟩
      have hm : m ≠ .setPaused none := fun hEq => hheld (hEq ▸ List.mem_cons_self)
      exact ih (hu.next hqueue hm hstep) (fun hmem => hheld (List.mem_cons_of_mem _ hmem)) hrest

/-- A step of a paused instance broadcasts only what its process has in hand. -/
theorem Since.begun {u u' : Instance} (hu : Since keccak s u) (h : step cfg keccak m u = some u') :
    Begun s m u u' where
  settlements := by
    intro tx hnew
    have hsender : ∃ pid, m.pid = some pid ∧ Handles u.settlement pid tx.settlementId := by
      have hsame : ¬ Settlement.Broadcasts u.settlement u.settlement tx := fun hold =>
        Table.lookup_eq_none.1 hold.2 tx hold.1 rfl
      cases steps_of_step h with
      | escrow _ _ => exact absurd hnew hsame
      | setPaused => exact absurd hnew hsame
      | @scheduler a scheduler _ hinner =>
          have hpasses := passes_of_step hu.sound.scheduler hu.paused.1 hinner
          have hnew' : Settlement.Broadcasts u.settlement scheduler.settlement tx := hnew
          generalize scheduler.settlement = settlement at hpasses hnew'
          cases hpasses with
          | nothing => exact absurd hnew' hsame
          | own hp _ hresumes =>
              rcases Settlement.exists_sender_of_broadcasts (.resume hp hresumes) hnew' with
                ⟨pid, caller, now, entity, amountWei, hpid, hprocess, htx⟩
              exact ⟨pid, hpid, _, hprocess, congrArg some htx.symm⟩
          | other hacts =>
              rcases Settlement.exists_sender_of_broadcasts hacts hnew' with
                ⟨pid, caller, now, entity, amountWei, hpid, hprocess, htx⟩
              exact ⟨pid, hpid, _, hprocess, congrArg some htx.symm⟩
    rcases hsender with ⟨pid, hpid, hhandles⟩
    exact ⟨pid, hpid, hu.settlements pid _ hhandles⟩
  releases := by
    intro tx htx hfresh hpayout
    cases steps_of_step h with
    | scheduler _ _ => exact absurd rfl (Table.lookup_eq_none.1 hfresh tx htx)
    | setPaused => exact absurd rfl (Table.lookup_eq_none.1 hfresh tx htx)
    | escrow _ hinner =>
        rcases exists_release_of_payout hu.sound.quiet.process hinner htx hfresh hpayout with
          ⟨call, reply, rfl, hcall⟩
        exact ⟨call, reply, rfl, hu.releases call hcall⟩

end Runs

/-- Settlements are paused in `s`, and the pause has not been lifted when `u` is reached.  As long as
no retry run goes on to a due row meanwhile, a step from `u` broadcasts a payout only for a settlement
or a release that was in hand in `s`. -/
theorem payouts_begun_before_pause (cfg : Config) (keccak : Keccak) (before after : List Act)
    (reason : String) (m : Act) (s s' u u' : Instance)
    (hbefore : run (step cfg keccak) before initial = some s)
    (hpause : step cfg keccak (.setPaused (some reason)) s = some s')
    (hafter : run (guarded (QueueWaits cfg) (step cfg keccak)) after s' = some u)
    (hheld : .setPaused none ∉ after) (hstep : step cfg keccak m u = some u') : Begun s m u u' := by
  have hsound : Sound keccak s :=
    run_invariant (fun _ _ _ hs h => sound_of_step hs h) (initial_sound keccak) hbefore
  have hset : Since keccak s s' := by
    have hsound' := sound_of_step hsound hpause
    cases steps_of_step hpause with
    | setPaused => exact ⟨hsound', ⟨rfl, nofun⟩, fun _ _ h => h, fun _ h => h⟩
  exact (hset.later hheld hafter).begun hstep

def sampleConfig : Config where
  scheduler :=
    { windowMs := 60000
      maxReceipts := 100
      maxReceipts_pos := by decide
      scanLimit := 1000
      settlement := { Settlement.sampleConfig with maxAttempts := 5 } }
  escrow := Escrow.sampleConfig

/-- A settlement that is not broadcast at first, and is due again after the base delay. -/
def settledLater (pid : Pid) (id : SettlementId) (now : Settlement.Time) : List Act :=
  [.settleBatch pid id Settlement.sampleInput, .resume pid now .done, .resume pid now (.gas none),
    .resume pid now (.failed Settlement.refused), .resume pid now .done].map fun a =>
      .scheduler (.other a)

/-- A retry run has read the rows that are due and begun with the first one. -/
def retryRun : List Act :=
  [.processDue 3 40000, .resume 3 40000 .done].map fun a => .scheduler (.other a)

/-- The attempt of the retry run is about to send. -/
def checksGas : List Act := [.scheduler (.other (.resume 3 40000 (.gas none)))]

def sends (hash : Settlement.TxHash) : Act := .scheduler (.other (.resume 3 40000 (.sent hash)))

/-- The only due row is in hand when the pause comes, so it is still paid. -/
theorem payouts_begun_before_pause_lastRow :
    ∃ s s' u u' tx,
      run (step sampleConfig Receipts.sampleKeccak) (settledLater 1 7 0 ++ retryRun) initial = some s ∧
      step sampleConfig Receipts.sampleKeccak (.setPaused (some "drill")) s = some s' ∧
      run (guarded (QueueWaits sampleConfig) (step sampleConfig Receipts.sampleKeccak)) checksGas s' =
        some u ∧
      step sampleConfig Receipts.sampleKeccak (sends 100) u = some u' ∧ u.isPaused = true ∧
      Settlement.Broadcasts u.settlement u'.settlement tx ∧ Begun s (sends 100) u u' := by
  have hreached : ((run (step sampleConfig Receipts.sampleKeccak) (settledLater 1 7 0 ++ retryRun)
      initial).any fun s =>
        (step sampleConfig Receipts.sampleKeccak (.setPaused (some "drill")) s).any fun s' =>
          (run (guarded (QueueWaits sampleConfig) (step sampleConfig Receipts.sampleKeccak)) checksGas
            s').any fun u =>
              (step sampleConfig Receipts.sampleKeccak (sends 100) u).any fun u' =>
                u.isPaused && u'.settlement.store.transactions.any fun tx =>
                  Table.lookup Settlement.Transaction.hash u.settlement.store.transactions tx.hash =
                    none) = true := by
    decide +kernel
  rcases (Option.any_eq_true _ _).1 hreached with ⟨s, hs, hpause⟩
  rcases (Option.any_eq_true _ _).1 hpause with ⟨s', hs', hafter⟩
  rcases (Option.any_eq_true _ _).1 hafter with ⟨u, hu, hsend⟩
  rcases (Option.any_eq_true _ _).1 hsend with ⟨u', hu', hnew⟩
  rcases Bool.and_eq_true_iff.1 hnew with ⟨hpaused, hany⟩
  rcases List.any_eq_true.1 hany with ⟨tx, htx, hfresh⟩
  exact ⟨s, s', u, u', tx, hs, hs', hu, hu', hpaused, ⟨htx, of_decide_eq_true hfresh⟩,
    payouts_begun_before_pause sampleConfig Receipts.sampleKeccak _ checksGas "drill" (sends 100) s s'
      u u' hs hs' hu (by simp [checksGas]) hu'⟩

/-- The attempt in hand is paid, and the run goes on to the row behind it. -/
def nextRow : List Act :=
  checksGas ++ [sends 100] ++
    [.resume 3 40000 .done, .evolve 100 (.mined 5), .resume 3 40000 .done, .resume 3 40000 .done,
      .resume 3 40000 .done].map (fun a => .scheduler (.other a)) ++
    checksGas

/-- Two rows are due and the pause comes during the first attempt: the second row is paid as well. -/
theorem paused_queue_pays :
    ¬ ∀ (cfg : Config) (keccak : Keccak) (before after : List Act) (reason : String) (m : Act)
        (s s' u u' : Instance), run (step cfg keccak) before initial = some s →
      step cfg keccak (.setPaused (some reason)) s = some s' →
      run (step cfg keccak) after s' = some u → .setPaused none ∉ after →
      step cfg keccak m u = some u' → Begun s m u u' := by
  intro hclaim
  have hreached : ((run (step sampleConfig Receipts.sampleKeccak)
      (settledLater 1 7 0 ++ settledLater 2 8 1000 ++ retryRun) initial).any fun s =>
        (step sampleConfig Receipts.sampleKeccak (.setPaused (some "drill")) s).any fun s' =>
          (run (step sampleConfig Receipts.sampleKeccak) nextRow s').any fun u =>
            (step sampleConfig Receipts.sampleKeccak (sends 101) u).any fun u' =>
              (s.settlement.process 3).bind inProcess = some 7 &&
                u'.settlement.store.transactions.any fun tx => tx.settlementId = 8 &&
                  Table.lookup Settlement.Transaction.hash u.settlement.store.transactions tx.hash =
                    none) = true := by
    decide +kernel
  rcases (Option.any_eq_true _ _).1 hreached with ⟨s, hs, hpause⟩
  rcases (Option.any_eq_true _ _).1 hpause with ⟨s', hs', hafter⟩
  rcases (Option.any_eq_true _ _).1 hafter with ⟨u, hu, hsend⟩
  rcases (Option.any_eq_true _ _).1 hsend with ⟨u', hu', hnew⟩
  rcases Bool.and_eq_true_iff.1 hnew with ⟨hinHand, hany⟩
  rcases List.any_eq_true.1 hany with ⟨tx, htx, hboth⟩
  rcases Bool.and_eq_true_iff.1 hboth with ⟨hid, hfresh⟩
  have hbegun := hclaim sampleConfig Receipts.sampleKeccak _ nextRow "drill" (sends 101) s s' u u' hs hs'
    hu (by simp [nextRow, checksGas, sends]) hu'
  rcases hbegun.settlements tx ⟨htx, of_decide_eq_true hfresh⟩ with ⟨pid, hpid, p, hp, hhandled⟩
  -- the sender had settlement 7 in hand, and pays settlement 8
  cases hpid
  have hseven : (s.settlement.process 3).bind inProcess = some 7 := of_decide_eq_true hinHand
  rw [hp, Option.bind_some, hhandled, of_decide_eq_true hid] at hseven
  cases hseven

end Payouts
end PaymentRail
