import PaymentRail.Settlement.RetryQueue

/-!
# Stranded — settlements that somebody can still finish

A row is *visible* if it is settled, in the retry queue with a time to look at it again, or in the
list of dead letters from which it can be replayed.  `settleBatch` creates its row as pending and
writes the outcome at the very end of `attempt`, after the try block; if that save fails the row
stays pending, and neither `findDueRetries` nor `replay` ever looks at it
(`lost_outcome_strands_settlement`).  That is the only way to strand a settlement
(`settlement_not_stranded`), whatever else fails and however the operations interleave.
-/

namespace PaymentRail
namespace Settlement

open Machine Strings Money Fees Collections

/-- Somebody will look at the row, or nobody has to. -/
def SettlementRow.visible (row : SettlementRow) : Bool :=
  match row.status with
  | .settled => true
  | .rejected => true
  | .deadLetter => true
  | .retrying => row.nextRetryAt.isSome
  | .pending => false

/-- `settleBatch` is told that the save of its outcome failed. -/
def firstOutcomeLost (a : Action) (s : State) : Bool :=
  match a with
  | .resume pid _ (.failed _) =>
      match s.process pid with
      | some (.attempt .settleBatch _ _ .saveOutcome) => true
      | _ => false
  | _ => false

/-- The call of `settleBatch` that created the row is still running. -/
def State.settling (s : State) (id : SettlementId) : Prop :=
  ∃ pid now entity stage, s.process pid = some (.attempt .settleBatch now entity stage) ∧
    entity.id = id

/-! ## What the processes have in memory -/

/-- A first attempt has a pending row in memory until it knows the outcome; all others took up a
visible row. -/
def Caller.Shows (entity : SettlementRow) (stage : Stage) : Caller → Prop
  | .settleBatch =>
      if stage.beforeOutcome = true then entity.status = .pending else entity.visible = true
  | _ => entity.visible = true

def Process.Shows : Process → Prop
  | .insert entity => entity.status = .pending
  | .attempt caller _ entity stage =>
      caller.Shows entity stage ∧ ∀ row ∈ caller.rest, row.visible = true
  | _ => True

section Memory

variable {cfg : Config} {now : Time} {entity : SettlementRow} {reply : Reply}

theorem visible_recordFailure (error : Failure) :
    (recordFailure cfg now entity error).visible = true := by
  unfold recordFailure failureOutcome
  split
  · rfl
  · split
    · rfl
    · rfl

theorem Caller.shows_of_visible (caller : Caller) {stage : Stage} (hstage : stage.beforeOutcome = false)
    (h : entity.visible = true) : caller.Shows entity stage := by
  cases caller with
  | settleBatch => simpa [Shows, hstage] using h
  | processDue rest => exact h
  | replay => exact h

/-- Moving on inside the try block leaves what is in memory. -/
theorem Caller.Shows.wait {caller : Caller} {stage stage' : Stage} {next : SettlementRow}
    (h : caller.Shows entity stage) (hstage : stage.beforeOutcome = true)
    (hstage' : stage'.beforeOutcome = true) (hstatus : next.status = entity.status)
    (hnext : next.nextRetryAt = entity.nextRetryAt) : caller.Shows next stage' := by
  have hvisible : next.visible = entity.visible := by
    simp only [SettlementRow.visible, hstatus, hnext]
  cases caller with
  | settleBatch =>
      simp only [Shows, hstage, hstage', if_pos] at h ⊢
      rw [hstatus]
      exact h
  | processDue rest =>
      show next.visible = true
      rw [hvisible]
      exact h
  | replay =>
      show next.visible = true
      rw [hvisible]
      exact h

/-- An answer leads to a wait with a pending row or with an outcome that can be seen. -/
theorem attempts_shows {caller : Caller} {stage stage' : Stage} {store store' : Store}
    {next : SettlementRow} (h : caller.Shows entity stage)
    (hattempts : Attempts cfg now entity store stage reply store' (.await next stage')) :
    caller.Shows next stage' := by
  cases hattempts with
  | mined _ => exact h.wait rfl rfl rfl rfl
  | reverted _ => exact h.wait rfl rfl rfl rfl
  | noReceipt => exact h.wait rfl rfl rfl rfl
  | deep _ _ => exact caller.shows_of_visible rfl rfl
  | shallow _ _ => exact caller.shows_of_visible rfl rfl
  | gone _ => exact h.wait rfl rfl rfl rfl
  | inMempool _ => exact caller.shows_of_visible rfl rfl
  | gasTooHigh _ => exact caller.shows_of_visible rfl (visible_recordFailure _)
  | badAmount _ => exact caller.shows_of_visible rfl (visible_recordFailure _)
  | gasAccepted _ _ => exact h.wait rfl rfl rfl rfl
  | broadcast _ => exact h.wait rfl rfl rfl rfl
  | hashSaved => exact h.wait rfl rfl rfl rfl
  | confirmed _ _ => exact caller.shows_of_visible rfl rfl
  | accrued => exact h
  | notAccrued => exact h
  | caught _ _ => exact caller.shows_of_visible rfl (visible_recordFailure _)

theorem startAttempt_visible (row : SettlementRow) :
    (startAttempt row).1.visible = row.visible := by
  cases hhash : row.txHash with
  | none => simp [startAttempt, hhash, SettlementRow.visible]
  | some hash => simp [startAttempt, hhash, SettlementRow.visible]

theorem startAttempt_pending (hpending : entity.status = .pending) :
    Caller.settleBatch.Shows (startAttempt entity).1 (startAttempt entity).2 := by
  cases hhash : entity.txHash with
  | none => simpa [startAttempt, hhash, Caller.Shows, Stage.beforeOutcome] using hpending
  | some hash => simpa [startAttempt, hhash, Caller.Shows, Stage.beforeOutcome] using hpending

theorem visible_of_replayable {row : SettlementRow} (h : replayable row.status = true) :
    row.visible = true := by
  cases hstatus : row.status with
  | rejected => simp [SettlementRow.visible, hstatus]
  | deadLetter => simp [SettlementRow.visible, hstatus]
  | pending => simp [replayable, hstatus] at h
  | settled => simp [replayable, hstatus] at h
  | retrying => simp [replayable, hstatus] at h

theorem visible_of_due {store : Store} {tick : Time} {limit : Nat} {row : SettlementRow}
    (h : row ∈ findDueRetries store tick limit) : row.visible = true := by
  have hmem : row ∈ store.settlements.filter (isDue tick) :=
    (List.mem_insertionSort _).1 (List.mem_of_mem_take h)
  have hdue := (List.mem_filter.1 hmem).2
  simp only [isDue, Bool.and_eq_true, decide_eq_true_eq, Option.any_eq_true] at hdue
  rcases hdue with ⟨hstatus, t, ht, _⟩
  simp [SettlementRow.visible, hstatus, ht]

end Memory

/-! ## The invariant -/

/-- First attempts are alone with their rows, which are pending; every other row is visible. -/
structure Seen (s : State) : Prop where
  keyed : Table.Keyed SettlementRow.id s.store.settlements
  processes : ∀ pid p, s.process pid = some p → p.Shows
  held : ∀ pid p, s.process pid = some p → ∀ id ∈ p.held, ∃ row, s.store.find id = some row
  first : ∀ pid now entity stage, s.process pid = some (.attempt .settleBatch now entity stage) →
    (∃ row, s.store.find entity.id = some row ∧ row.status = .pending) ∧
      ∀ qid q, s.process qid = some q → entity.id ∈ q.held → qid = pid
  rows : ∀ id row, s.store.find id = some row → row.visible = true ∨ s.settling id

section Steps

variable {cfg : Config} {s s' : State} {pid : Pid} {now : Time} {reply : Reply} {p p' : Process}

theorem turns_shows {store' : Store} (hseen : Seen s) (hp : s.process pid = some p)
    (hturns : Turns cfg s now p reply store' p') : p'.Shows := by
  have hshows := hseen.processes pid p hp
  cases hturns with
  | inserted _ => exact ⟨startAttempt_pending hshows, fun _ hr => absurd hr List.not_mem_nil⟩
  | @replayed id row _ hstatus _ _ =>
      refine ⟨?_, fun _ hr => absurd hr List.not_mem_nil⟩
      show (startAttempt _).1.visible = true
      rw [startAttempt_visible]
      exact visible_of_replayable hstatus
  | @scanned tick row rest hdue =>
      have hrows : ∀ r ∈ row :: rest, r.visible = true := by
        intro r hr
        rw [← hdue] at hr
        exact visible_of_due hr
      refine ⟨?_, fun r hr => hrows r (List.mem_cons_of_mem _ hr)⟩
      show (startAttempt _).1.visible = true
      rw [startAttempt_visible]
      exact hrows row List.mem_cons_self
  | awaits hattempts => exact ⟨attempts_shows hshows.1 hattempts, hshows.2⟩
  | @nextDue row rest _ _ _ _ _ _ =>
      refine ⟨?_, fun r hr => hshows.2 r (List.mem_cons_of_mem _ hr)⟩
      show (startAttempt _).1.visible = true
      rw [startAttempt_visible]
      exact hshows.2 row List.mem_cons_self

/-- The settlements a process goes on with: those it held, or one it has just taken up, which is
stored and not the pending row of a first attempt unless the process has written it itself. -/
theorem turns_held {store' : Store} (hseen : Seen s) (hp : s.process pid = some p)
    (hturns : Turns cfg s now p reply store' p') {id : SettlementId} (hid : id ∈ p'.held) :
    id ∈ p.held ∨ (∃ entity, p = .insert entity ∧ entity.id = id ∧ s.store.find id = none) ∨
      ∃ row, s.store.find id = some row ∧ row.status ≠ .pending := by
  cases hturns with
  | @inserted entity hfresh =>
      rw [held_attempt, startAttempt_id] at hid
      have hEq : id = entity.id := by simpa [Caller.rest] using hid
      exact Or.inr (Or.inl ⟨entity, rfl, hEq.symm, by rw [hEq]; exact hfresh⟩)
  | @replayed k row hrow hstatus _ _ =>
      rw [held_attempt, startAttempt_id] at hid
      have hkey : row.id = k := Table.key_of_lookup hrow
      have hEq : id = row.id := by simpa [Caller.rest] using hid
      refine Or.inr (Or.inr ⟨row, by rw [hEq, hkey]; exact hrow, ?_⟩)
      intro hpending
      simp [replayable, hpending] at hstatus
  | @scanned tick row rest hdue =>
      rw [held_attempt, startAttempt_id] at hid
      have hmem : id ∈ (findDueRetries s.store tick cfg.batchSize).map (·.id) := by
        rw [hdue]
        exact hid
      rcases List.mem_map.1 hmem with ⟨r, hr, rfl⟩
      rcases mem_findDueRetries hr with ⟨hstored, hstatus⟩
      refine Or.inr (Or.inr ⟨r, Table.lookup_of_mem hseen.keyed hstored, ?_⟩)
      rw [hstatus]
      intro hpending
      cases hpending
  | awaits hattempts =>
      rw [held_attempt, attempts_id hattempts] at hid
      rw [held_attempt]
      exact Or.inl hid
  | nextDue hattempts =>
      rw [held_attempt, startAttempt_id] at hid
      rw [held_attempt]
      exact Or.inl (List.mem_cons_of_mem _ hid)

/-- What a resumed process writes: a new row, or the one it has in memory. -/
theorem resumes_settlements (hresumes : Resumes cfg s pid now p reply s') :
    s'.store.settlements = s.store.settlements ∨
      reply = .done ∧ ∃ entity, s'.store.settlements = (s.store.save entity).settlements ∧
        (p = .insert entity ∧ s.store.find entity.id = none ∨
          ∃ caller begun stage, p = .attempt caller begun entity stage ∧
            (stage = .savePending ∨ stage = .saveHash ∨ stage = .saveOutcome)) := by
  cases hresumes with
  | @inserted entity hfresh _ => exact Or.inr ⟨rfl, entity, rfl, Or.inl ⟨rfl, hfresh⟩⟩
  | @insertedOnly entity hfresh _ => exact Or.inr ⟨rfl, entity, rfl, Or.inl ⟨rfl, hfresh⟩⟩
  | scanned => exact Or.inl (by rw [nextDue_store])
  | @attempted caller begun entity stage reply store' flow hattempt =>
      rw [proceed_store]
      rcases attempts_settlements (attempts_of_attemptStep hattempt) with
        hsame | ⟨hsaved, hdone, hstage⟩
      · exact Or.inl hsame
      · exact Or.inr ⟨hdone, entity, hsaved, Or.inr ⟨caller, begun, stage, rfl, hstage⟩⟩
  | _ => exact Or.inl rfl

/-- A row that was stored stays stored. -/
theorem resumes_stored (hresumes : Resumes cfg s pid now p reply s') {id : SettlementId}
    (hid : ∃ row, s.store.find id = some row) : ∃ row, s'.store.find id = some row := by
  rcases resumes_settlements hresumes with hsame | ⟨_, entity, hsaved, _⟩
  · rw [find_congr hsame]
    exact hid
  · rw [find_congr hsaved]
    by_cases hEq : id = entity.id
    · exact ⟨entity.stored, by rw [hEq]; exact find_save_self s.store entity⟩
    · rw [find_save_of_ne hEq]
      exact hid

/-- The row of a first attempt is left alone by all other processes. -/
theorem Seen.find_of_other (hseen : Seen s) (hp : s.process pid = some p)
    (hresumes : Resumes cfg s pid now p reply s') {qid : Pid} {begun : Time} {entity : SettlementRow}
    {stage : Stage} (hq : s.process qid = some (.attempt .settleBatch begun entity stage))
    (hne : qid ≠ pid) : s'.store.find entity.id = s.store.find entity.id := by
  rcases hseen.first qid begun entity stage hq with ⟨⟨row, hrow, _⟩, halone⟩
  rcases resumes_settlements hresumes with hsame | ⟨_, written, hsaved, hwho⟩
  · exact find_congr hsame _
  · refine (find_congr hsaved _).trans (find_save_of_ne ?_)
    intro hEq
    rcases hwho with ⟨_, hfresh⟩ | ⟨caller, begun', stage', rfl, _⟩
    · rw [← hEq, hrow] at hfresh
      cases hfresh
    · refine hne (halone pid _ hp ?_).symm
      rw [held_attempt, hEq]
      exact List.mem_cons_self

/-- First attempts stay alone with their rows. -/
theorem resumes_first (hseen : Seen s) (hp : s.process pid = some p)
    (hresumes : Resumes cfg s pid now p reply s') {qid : Pid} {begun : Time} {entity : SettlementRow}
    {stage : Stage} (hq : s'.process qid = some (.attempt .settleBatch begun entity stage)) :
    (∃ row, s'.store.find entity.id = some row ∧ row.status = .pending) ∧
      ∀ rid r, s'.process rid = some r → entity.id ∈ r.held → rid = qid := by
  by_cases hpid : qid = pid
  · subst hpid
    have hothers : ∀ id, (∀ rid r, s.process rid = some r → id ∈ r.held → rid = qid) →
        ∀ rid r, s'.process rid = some r → id ∈ r.held → rid = qid := by
      intro id halone rid r hr hheld
      by_contra hrid
      rw [resumes_others hresumes hrid] at hr
      exact hrid (halone rid r hr hheld)
    have hturns := turns_of_resumes hresumes hq
    generalize hstore : s'.store = store' at hturns
    cases hturns with
    | @inserted created hfresh =>
        have hpending : created.status = .pending := hseen.processes qid _ hp
        rw [startAttempt_id]
        refine ⟨⟨created.stored, find_save_self s.store created, hpending⟩, hothers _ ?_⟩
        intro rid r hr hheld
        rcases hseen.held rid r hr created.id hheld with ⟨row, hrow⟩
        rw [hfresh] at hrow
        cases hrow
    | @awaits _ _ before _ stage₀ _ _ _ hattempts =>
        rcases hseen.first qid begun before stage₀ hp with ⟨⟨row, hrow, hpending⟩, halone⟩
        rw [attempts_id hattempts]
        refine ⟨?_, hothers _ halone⟩
        rcases attempts_settlements hattempts with hsame | ⟨hsaved, rfl, hstage⟩
        · exact ⟨row, by rw [find_congr hsame]; exact hrow, hpending⟩
        · refine ⟨before.stored, by rw [find_congr hsaved]; exact find_save_self s.store before, ?_⟩
          -- only the hash is saved on the way; the row is still as it was created
          have hshows := (hseen.processes qid _ hp).1
          rcases hstage with rfl | rfl | rfl
          · cases hattempts
          · exact hshows
          · cases hattempts
  · rw [resumes_others hresumes hpid] at hq
    rcases hseen.first qid begun entity stage hq with ⟨⟨row, hrow, hpending⟩, halone⟩
    constructor
    · exact ⟨row, by rw [hseen.find_of_other hp hresumes hq hpid]; exact hrow, hpending⟩
    · intro rid r hr hheld
      by_cases hrid : rid = pid
      · subst hrid
        rcases turns_held hseen hp (turns_of_resumes hresumes hr) hheld with
          hold | ⟨_, _, _, hfresh⟩ | ⟨row', hrow', hother⟩
        · exact halone rid p hp hold
        · rw [hrow] at hfresh
          cases hfresh
        · rw [hrow] at hrow'
          cases hrow'
          exact absurd hpending hother
      · rw [resumes_others hresumes hrid] at hr
        exact halone rid r hr hheld

theorem Caller.Shows.visible {caller : Caller} {entity : SettlementRow} {stage : Stage}
    (h : caller.Shows entity stage) (hstage : stage.beforeOutcome = false) : entity.visible = true := by
  cases caller with
  | settleBatch => simpa [Shows, hstage] using h
  | processDue rest => exact h
  | replay => exact h

/-- A first attempt goes on, or ends with a row that can be seen. -/
theorem settling_kept (hseen : Seen s) (hp : s.process pid = some p)
    (hok : firstOutcomeLost (.resume pid now reply) s = false)
    (hresumes : Resumes cfg s pid now p reply s') {id : SettlementId} (h : s.settling id) :
    s'.settling id ∨ ∃ entity : SettlementRow, s'.store.find id = some entity.stored ∧
      entity.visible = true := by
  rcases h with ⟨qid, begun, entity, stage, hq, rfl⟩
  by_cases hpid : qid = pid
  swap
  · exact Or.inl ⟨qid, begun, entity, stage, by rw [resumes_others hresumes hpid]; exact hq, rfl⟩
  subst hpid
  rw [hq] at hp
  cases hp
  have hshows := (hseen.processes qid _ hq).1
  cases hresumes with
  | @attempted _ _ _ _ _ store' flow hattempt =>
      cases flow with
      | await next stage' =>
          exact Or.inl ⟨qid, begun, next, stage', process_spawn_self _ _ _,
            attempts_id (attempts_of_attemptStep hattempt)⟩
      | returned =>
          refine Or.inr ⟨entity, ?_, ?_⟩
          · cases attempts_of_attemptStep hattempt with
            | pendingSaved => exact find_save_self s.store entity
            | outcomeSaved =>
                have hfields := emitOutcome_fields (s.store.save entity) entity
                exact (find_congr hfields.1 entity.id).trans (find_save_self s.store entity)
          · cases attempts_of_attemptStep hattempt with
            | pendingSaved => exact hshows.visible rfl
            | outcomeSaved => exact hshows.visible rfl
      | thrown error =>
          cases attempts_of_attemptStep hattempt with
          | outcomeLost =>
              simp only [firstOutcomeLost, hq] at hok
              cases hok

/-- After a step every row is visible, or its first attempt is still under way. -/
theorem resumes_rows (hseen : Seen s) (hhub : cfg.hubConfigured = true) (hp : s.process pid = some p)
    (hok : firstOutcomeLost (.resume pid now reply) s = false)
    (hresumes : Resumes cfg s pid now p reply s') {id : SettlementId} {row : SettlementRow}
    (hrow : s'.store.find id = some row) : row.visible = true ∨ s'.settling id := by
  have hold : s.store.find id = some row → row.visible = true ∨ s'.settling id := by
    intro hbefore
    rcases hseen.rows id row hbefore with hvisible | hsettling
    · exact Or.inl hvisible
    · rcases settling_kept hseen hp hok hresumes hsettling with hsettling | ⟨entity, hfound, hvisible⟩
      · exact Or.inr hsettling
      · rw [hfound] at hrow
        cases hrow
        exact Or.inl hvisible
  have hshows := hseen.processes pid p hp
  rcases resumes_settlements hresumes with hsame | ⟨rfl, entity, hsaved, hwho⟩
  · exact hold (by rw [← find_congr hsame]; exact hrow)
  · rw [find_congr hsaved] at hrow
    by_cases hid : id = entity.id
    swap
    · exact hold (by rw [← find_save_of_ne hid]; exact hrow)
    subst hid
    rw [find_save_self] at hrow
    cases hrow
    rcases hwho with ⟨rfl, _⟩ | ⟨caller, begun, stage, rfl, hstage⟩
    · cases hresumes with
      | inserted _ _ =>
          exact Or.inr ⟨pid, now, _, _, process_spawn_self _ _ _, startAttempt_id entity⟩
      | insertedOnly _ hnone =>
          rw [hhub] at hnone
          cases hnone
    · rcases hstage with rfl | rfl | rfl
      · exact Or.inl (hshows.1.visible rfl)
      -- the hash is saved with the status the row was taken up with
      · cases caller with
        | settleBatch =>
            rcases settling_kept hseen hp hok hresumes ⟨pid, begun, entity, .saveHash, hp, rfl⟩ with
              hsettling | ⟨other, hfound, hvisible⟩
            · exact Or.inr hsettling
            · rw [find_congr hsaved, find_save_self] at hfound
              rw [Option.some.inj hfound]
              exact Or.inl hvisible
        | processDue rest => exact Or.inl hshows.1
        | replay => exact Or.inl hshows.1
      · exact Or.inl (hshows.1.visible rfl)

theorem resumes_seen (hseen : Seen s) (hhub : cfg.hubConfigured = true) (hp : s.process pid = some p)
    (hok : firstOutcomeLost (.resume pid now reply) s = false)
    (hresumes : Resumes cfg s pid now p reply s') : Seen s' where
  keyed := by
    rcases resumes_settlements hresumes with hsame | ⟨_, entity, hsaved, _⟩
    · rw [hsame]
      exact hseen.keyed
    · rw [hsaved]
      exact hseen.keyed.put
  processes := by
    intro qid q hq
    by_cases hpid : qid = pid
    · subst hpid
      exact turns_shows hseen hp (turns_of_resumes hresumes hq)
    · rw [resumes_others hresumes hpid] at hq
      exact hseen.processes qid q hq
  held := by
    intro qid q hq id hid
    by_cases hpid : qid = pid
    · subst hpid
      have hturns := turns_of_resumes hresumes hq
      rcases turns_held hseen hp hturns hid with hold | ⟨entity, rfl, rfl, _⟩ | ⟨row, hrow, _⟩
      · exact resumes_stored hresumes (hseen.held qid p hp id hold)
      · generalize hstore : s'.store = store' at hturns
        cases hturns with
        | inserted _ => exact ⟨entity.stored, find_save_self s.store entity⟩
      · exact resumes_stored hresumes ⟨row, hrow⟩
    · rw [resumes_others hresumes hpid] at hq
      exact resumes_stored hresumes (hseen.held qid q hq id hid)
  first := fun _ _ _ _ hq => resumes_first hseen hp hresumes hq
  rows := fun _ _ hrow => resumes_rows hseen hhub hp hok hresumes hrow

/-- A new process that has not read anything yet. -/
theorem Seen.spawn (hseen : Seen s) (hfree : s.process pid = none) (hshows : p.Shows)
    (hheld : p.held = []) : Seen (s.spawn pid p) := by
  have hnew : ∀ qid q, (s.spawn pid p).process qid = some q →
      qid = pid ∧ q = p ∨ qid ≠ pid ∧ s.process qid = some q := by
    intro qid q hq
    by_cases hpid : qid = pid
    · subst hpid
      rw [process_spawn_self] at hq
      exact Or.inl ⟨rfl, (Option.some.inj hq).symm⟩
    · rw [process_spawn_of_ne s pid p hpid] at hq
      exact Or.inr ⟨hpid, hq⟩
  refine ⟨hseen.keyed, ?_, ?_, ?_, ?_⟩
  · intro qid q hq
    rcases hnew qid q hq with ⟨_, rfl⟩ | ⟨_, hq⟩
    · exact hshows
    · exact hseen.processes qid q hq
  · intro qid q hq id hid
    rcases hnew qid q hq with ⟨_, rfl⟩ | ⟨_, hq⟩
    · rw [hheld] at hid
      cases hid
    · exact hseen.held qid q hq id hid
  · intro qid begun entity stage hq
    rcases hnew qid _ hq with ⟨_, rfl⟩ | ⟨_, hq⟩
    · rw [held_attempt] at hheld
      cases hheld
    · rcases hseen.first qid begun entity stage hq with ⟨hrow, halone⟩
      refine ⟨hrow, ?_⟩
      intro rid r hr hid
      rcases hnew rid r hr with ⟨_, rfl⟩ | ⟨_, hr⟩
      · rw [hheld] at hid
        cases hid
      · exact halone rid r hr hid
  · intro id row hrow
    rcases hseen.rows id row hrow with hvisible | ⟨qid, begun, entity, stage, hq, hid⟩
    · exact Or.inl hvisible
    · have hpid : qid ≠ pid := by
        rintro rfl
        rw [hfree] at hq
        cases hq
      exact Or.inr ⟨qid, begun, entity, stage, by rw [process_spawn_of_ne s pid p hpid]; exact hq, hid⟩

theorem step_seen {a : Action} (hseen : Seen s) (hhub : cfg.hubConfigured = true)
    (hok : firstOutcomeLost a s = false) (hstep : step cfg a s = some s') : Seen s' := by
  cases acts_of_step hstep with
  | settleBatch hfree _ hentity => exact hseen.spawn hfree (newSettlement_fields hentity).1 rfl
  | @processDue pid now hfree _ _ =>
      have hspawned : Seen (s.spawn pid (.findDueRetries now)) := hseen.spawn hfree trivial rfl
      exact ⟨hspawned.keyed, hspawned.processes, hspawned.held, hspawned.first, hspawned.rows⟩
  | replay hfree => exact hseen.spawn hfree trivial rfl
  | resume hp hresumes => exact resumes_seen hseen hhub hp hok hresumes
  | evolve _ _ => exact ⟨hseen.keyed, hseen.processes, hseen.held, hseen.first, hseen.rows⟩
  | setPaused => exact ⟨hseen.keyed, hseen.processes, hseen.held, hseen.first, hseen.rows⟩

/-- The lost outcome leaves a pending row that no call is working on. -/
theorem stranded_of_lost {a : Action} (hseen : Seen s) (hlost : firstOutcomeLost a s = true)
    (hstep : step cfg a s = some s') :
    ∃ row ∈ s'.store.settlements, row.status = .pending ∧ ¬ s'.settling row.id := by
  cases a with
  | resume pid now reply =>
      cases reply with
      | failed error =>
          simp only [firstOutcomeLost] at hlost
          split at hlost
          · rename_i begun entity hp
            rcases hseen.first pid begun entity .saveOutcome hp with ⟨⟨row, hrow, hpending⟩, halone⟩
            have hid : row.id = entity.id := Table.key_of_lookup hrow
            have hs' : s' = s.exit pid := by
              simp only [step, hp, resume, attemptStep] at hstep
              exact (Option.some.inj hstep).symm
            subst hs'
            refine ⟨row, Table.mem_of_lookup hrow, hpending, ?_⟩
            rintro ⟨qid, begun', other, stage, hq, hother⟩
            have hpid : qid ≠ pid := by
              rintro rfl
              rw [process_exit_self] at hq
              cases hq
            rw [process_exit_of_ne s pid hpid] at hq
            refine hpid (halone qid _ hq ?_)
            rw [held_attempt, hother, hid]
            exact List.mem_cons_self
          · cases hlost
      | _ => cases hlost
  | _ => cases hlost

end Steps

/-! ## Whole runs -/

theorem initial_seen : Seen initial where
  keyed := List.nodup_nil
  processes := by
    intro pid p hp
    cases hp
  held := by
    intro pid p hp
    cases hp
  first := by
    intro pid now entity stage hp
    cases hp
  rows := by
    intro id row hrow
    cases hrow

/-- With a hub configured, in every run in which the save of a first attempt's outcome does not fail,
whatever else fails and however the operations interleave, every stored row is visible as soon as the
`settleBatch` that created it has returned or thrown.  The condition cannot be weakened: a first
attempt whose outcome is not saved leaves a pending row behind. -/
theorem settlement_not_stranded (cfg : Config) (hhub : cfg.hubConfigured = true) (as : List Action)
    (s : State)
    (hrun : run (guarded (fun a s => firstOutcomeLost a s = false) (step cfg)) as initial = some s) :
    (∀ row ∈ s.store.settlements, row.visible = true ∨ s.settling row.id) ∧
      ∀ a s', firstOutcomeLost a s = true → step cfg a s = some s' →
        ∃ row ∈ s'.store.settlements, row.visible = false ∧ ¬ s'.settling row.id := by
  have hseen : Seen s := by
    refine run_invariant ?_ initial_seen hrun
    intro a t t' ht hstep
    rcases guarded_eq_some.1 hstep with ⟨hok, hstep⟩
    exact step_seen ht hhub hok hstep
  constructor
  · intro row hrow
    exact hseen.rows row.id row (Table.lookup_of_mem hseen.keyed hrow)
  · intro a s' hlost hstep
    rcases stranded_of_lost hseen hlost hstep with ⟨row, hrow, hpending, hgone⟩
    exact ⟨row, hrow, by simp [SettlementRow.visible, hpending], hgone⟩

def disconnected : Failure where
  code := "ECONNREFUSED"
  message := "connect ECONNREFUSED"

/-- A first attempt whose transaction is sent, but whose hash is not saved. -/
def lostHash : List Action :=
  [.settleBatch 0 7 sampleInput, .resume 0 0 .done, .resume 0 0 (.gas none), .resume 0 0 (.sent 100),
    .resume 0 0 (.failed disconnected), .resume 0 0 .done]

theorem settlement_not_stranded_lostHash :
    ∃ s, run (guarded (fun a s => firstOutcomeLost a s = false) (step sampleConfig)) lostHash initial =
        some s ∧
      s.store.settlements ≠ [] ∧ ∀ row ∈ s.store.settlements, row.visible = true ∨ s.settling row.id := by
  have hreached : ((run (guarded (fun a s => firstOutcomeLost a s = false) (step sampleConfig)) lostHash
      initial).any fun s => !s.store.settlements.isEmpty) = true := by
    decide +kernel
  rcases (Option.any_eq_true _ _).1 hreached with ⟨s, hs, hsome⟩
  exact ⟨s, hs, by simpa using hsome, (settlement_not_stranded sampleConfig rfl lostHash s hs).1⟩

/-- A first attempt that is paid, but whose outcome is not saved. -/
def lostOutcome : List Action :=
  [.settleBatch 0 7 sampleInput, .resume 0 0 .done, .resume 0 0 (.gas none), .resume 0 0 (.sent 100),
    .resume 0 0 .done, .evolve 100 (.mined 3), .resume 0 0 .done, .resume 0 0 .done,
    .resume 0 0 (.failed disconnected)]

/-- Nobody is working on the row any more, and nobody will look at it again. -/
theorem lost_outcome_strands_settlement :
    ¬ ∀ (cfg : Config) (as : List Action) (s : State), cfg.hubConfigured = true →
      run (step cfg) as initial = some s → s.processes = [] →
        ∀ row ∈ s.store.settlements, row.visible = true := by
  intro hclaim
  have hreached : ((run (step sampleConfig) lostOutcome initial).any fun s =>
      s.processes.isEmpty && s.store.settlements.any fun row => !row.visible) = true := by
    decide +kernel
  rcases (Option.any_eq_true _ _).1 hreached with ⟨s, hs, hfacts⟩
  rcases Bool.and_eq_true_iff.1 hfacts with ⟨hidle, hany⟩
  rcases List.any_eq_true.1 hany with ⟨row, hrow, hhidden⟩
  have hvisible := hclaim sampleConfig lostOutcome s rfl hs (by simpa using hidle) row hrow
  rw [hvisible] at hhidden
  cases hhidden

end Settlement
end PaymentRail
