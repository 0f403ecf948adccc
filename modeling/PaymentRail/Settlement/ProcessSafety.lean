import PaymentRail.Settlement.AttemptSafety

/-!
# ProcessSafety — attempts of many processes side by side

A process *holds* a settlement from the moment it has read the row until it has written its outcome.
The invariant of this file says that no settlement is held twice and that every settlement without a
holder is at rest; the lemmas `…_moves` show for each step of a process that it keeps the invariant.
-/

namespace PaymentRail
namespace Settlement

open Machine Strings Money Fees Collections

/-! ## Processes -/

/-- The settlements a process has read and not yet written back. -/
def Process.held : Process → List SettlementId
  | .attempt (.processDue rest) _ entity _ => entity.id :: rest.map (·.id)
  | .attempt _ _ entity _ => [entity.id]
  | _ => []

def Process.isTick : Process → Bool
  | .findDueRetries _ => true
  | .attempt (.processDue _) _ _ _ => true
  | _ => false

/-- A due settlement that a tick has read but not yet attempted. -/
structure Queued (store : Store) (row : SettlementRow) : Prop where
  stored : store.find row.id = some row
  status : row.status = .retrying
  sound : RowSound store.transactions row

def ProcessSound (store : Store) : Process → Prop
  | .insert entity => entity.status = .pending ∧ entity.txHash = none
  | .attempt (.processDue rest) _ entity stage =>
      Busy store (.processDue rest) entity stage ∧ (∀ row ∈ rest, Queued store row) ∧
        (entity.id :: rest.map (·.id)).Nodup
  | .attempt caller _ entity stage => Busy store caller entity stage
  | _ => True

theorem ProcessSound.frame {store store' : Store} {p : Process} (h : ProcessSound store p)
    (hframe : ∀ id ∈ p.held, store'.find id = store.find id ∧
      Evolved id store.transactions store'.transactions) : ProcessSound store' p := by
  cases p with
  | insert entity => exact h
  | findById id => trivial
  | findDueRetries now => trivial
  | attempt caller now entity stage =>
      cases caller with
      | settleBatch =>
          rcases hframe entity.id (by simp [Process.held]) with ⟨hfind, hev⟩
          exact Busy.frame h hfind hev
      | replay =>
          rcases hframe entity.id (by simp [Process.held]) with ⟨hfind, hev⟩
          exact Busy.frame h hfind hev
      | processDue rest =>
          rcases hframe entity.id (by simp [Process.held]) with ⟨hfind, hev⟩
          refine ⟨h.1.frame hfind hev, ?_, h.2.2⟩
          intro row hrow
          have hmem : row.id ∈ (Process.attempt (.processDue rest) now entity stage).held :=
            List.mem_cons_of_mem _ (List.mem_map.2 ⟨row, hrow, rfl⟩)
          rcases hframe row.id hmem with ⟨hfind, hev⟩
          rcases h.2.1 row hrow with ⟨hstored, hstatus, hsound⟩
          exact ⟨hfind.trans hstored, hstatus, hsound.mono hev⟩

/-- A held settlement has a stored row in a status that fits the process holding it. -/
theorem ProcessSound.stored {store : Store} {p : Process} (h : ProcessSound store p)
    {id : SettlementId} (hid : id ∈ p.held) :
    ∃ row, store.find id = some row ∧
      ((p.isTick = true ∧ row.status = .retrying) ∨ (p.isTick = false ∧ row.status = .pending) ∨
        (p.isTick = false ∧ replayable row.status = true ∧
          ∃ now entity stage, p = .attempt .replay now entity stage)) := by
  cases p with
  | insert entity => simp [Process.held] at hid
  | findById id => simp [Process.held] at hid
  | findDueRetries now => simp [Process.held] at hid
  | attempt caller now entity stage =>
      cases caller with
      | settleBatch =>
          have hEq : id = entity.id := by simpa [Process.held] using hid
          rcases Busy.stored h with ⟨row, hrow, hstatus⟩
          refine ⟨row, hEq ▸ hrow, Or.inr (Or.inl ⟨rfl, ?_⟩)⟩
          simpa [Caller.expects] using hstatus
      | replay =>
          have hEq : id = entity.id := by simpa [Process.held] using hid
          rcases Busy.stored h with ⟨row, hrow, hstatus⟩
          exact ⟨row, hEq ▸ hrow, Or.inr (Or.inr ⟨rfl, hstatus, now, entity, stage, rfl⟩)⟩
      | processDue rest =>
          rcases List.mem_cons.1 hid with rfl | hrest
          · rcases h.1.stored with ⟨row, hrow, hstatus⟩
            exact ⟨row, hrow, Or.inl ⟨rfl, by simpa [Caller.expects] using hstatus⟩⟩
          · rcases List.mem_map.1 hrest with ⟨row, hrow, rfl⟩
            rcases h.2.1 row hrow with ⟨hstored, hstatus, _⟩
            exact ⟨row, hstored, Or.inl ⟨rfl, hstatus⟩⟩

/-- The hash a process knows for a settlement it holds. -/
theorem ProcessSound.owns {store : Store} {p : Process} (h : ProcessSound store p)
    {id : SettlementId} (hid : id ∈ p.held) : ∃ hash, Owns store.transactions id hash := by
  cases p with
  | insert entity => simp [Process.held] at hid
  | findById id => simp [Process.held] at hid
  | findDueRetries now => simp [Process.held] at hid
  | attempt caller now entity stage =>
      cases caller with
      | settleBatch =>
          have hEq : id = entity.id := by simpa [Process.held] using hid
          exact ⟨entity.txHash, hEq ▸ Busy.owns h⟩
      | replay =>
          have hEq : id = entity.id := by simpa [Process.held] using hid
          exact ⟨entity.txHash, hEq ▸ Busy.owns h⟩
      | processDue rest =>
          rcases List.mem_cons.1 hid with rfl | hrest
          · exact ⟨entity.txHash, h.1.owns⟩
          · rcases List.mem_map.1 hrest with ⟨row, hrow, rfl⟩
            exact ⟨row.txHash, (h.2.1 row hrow).sound.owns⟩

/-! ## The invariant -/

structure Invariant (s : State) : Prop where
  store : StoreSound s.store
  processes : ∀ pid p, s.process pid = some p → ProcessSound s.store p
  /-- No settlement is held twice. -/
  exclusive : ∀ pid qid p q, s.process pid = some p → s.process qid = some q → pid ≠ qid →
    ∀ id ∈ p.held, id ∉ q.held
  ticks : ∀ pid p, s.process pid = some p → p.isTick = true →
    s.running = true ∧ ∀ qid q, s.process qid = some q → q.isTick = true → qid = pid
  resting : ∀ id row, s.store.find id = some row → (∀ pid p, s.process pid = some p → id ∉ p.held) →
    RowSound s.store.transactions row

theorem initial_invariant : Invariant initial where
  store :=
    { rows := List.nodup_nil
      hashes := List.nodup_nil
      parents := by
        intro tx htx
        cases htx }
  processes := by
    intro pid p hp
    cases hp
  exclusive := by
    intro pid qid p q hp
    cases hp
  ticks := by
    intro pid p hp
    cases hp
  resting := by
    intro id row hrow
    cases hrow

/-- The store changes in the course of the process `pid`.  `touched` are the settlements the process
held before or holds after the step; everything about other settlements stays as it was. -/
structure Local (s : State) (pid : Pid) (store' : Store) (touched : List SettlementId) : Prop where
  store : StoreSound store'
  frame : ∀ id, id ∉ touched → store'.find id = s.store.find id ∧
    Evolved id s.store.transactions store'.transactions
  /-- Nobody else holds what is touched. -/
  alone : ∀ qid q, qid ≠ pid → s.process qid = some q → ∀ id ∈ touched, id ∉ q.held
  before : ∀ p, s.process pid = some p → ∀ id ∈ p.held, id ∈ touched

/-- One process moves on. -/
structure Moves (s s' : State) (pid : Pid) (touched : List SettlementId) : Prop
    extends Local s pid s'.store touched where
  others : ∀ qid, qid ≠ pid → s'.process qid = s.process qid
  after : ∀ p, s'.process pid = some p → ProcessSound s'.store p ∧ ∀ id ∈ p.held, id ∈ touched
  released : ∀ id ∈ touched, (∀ p, s'.process pid = some p → id ∉ p.held) →
    ∀ row, s'.store.find id = some row → RowSound s'.store.transactions row
  ticks : ∀ qid q, s'.process qid = some q → q.isTick = true →
    s'.running = true ∧ ∀ rid r, s'.process rid = some r → r.isTick = true → rid = qid

theorem Moves.invariant {s s' : State} {pid : Pid} {touched : List SettlementId}
    (h : Moves s s' pid touched) (hinv : Invariant s) : Invariant s' where
  store := h.store
  processes := by
    intro qid q hq
    by_cases hpid : qid = pid
    · subst hpid
      exact (h.after q hq).1
    -- another process holds nothing that was touched
    · rw [h.others qid hpid] at hq
      refine (hinv.processes qid q hq).frame ?_
      intro id hid
      exact h.frame id (fun htouched => h.alone qid q hpid hq id htouched hid)
  exclusive := by
    intro qid rid q r hq hr hne id hid hid'
    by_cases hpid : qid = pid
    · subst hpid
      have hother : rid ≠ qid := Ne.symm hne
      rw [h.others rid hother] at hr
      exact h.alone rid r hother hr id ((h.after q hq).2 id hid) hid'
    · rw [h.others qid hpid] at hq
      by_cases hrid : rid = pid
      · subst hrid
        exact h.alone qid q hpid hq id ((h.after r hr).2 id hid') hid
      · rw [h.others rid hrid] at hr
        exact hinv.exclusive qid rid q r hq hr hne id hid hid'
  ticks := h.ticks
  resting := by
    intro id row hrow hfree
    by_cases htouched : id ∈ touched
    · exact h.released id htouched (fun p hp => hfree pid p hp) row hrow
    -- the row was at rest before, and nothing about it has changed
    · rcases h.frame id htouched with ⟨hfind, hev⟩
      rw [hfind] at hrow
      have hold : ∀ qid q, s.process qid = some q → id ∉ q.held := by
        intro qid q hq hid
        by_cases hpid : qid = pid
        · subst hpid
          exact htouched (h.before q hq id hid)
        · exact hfree qid q (by rw [h.others qid hpid]; exact hq) hid
      have hid : row.id = id := Table.key_of_lookup hrow
      exact (hinv.resting id row hrow hold).mono (hid ▸ hev)

/-- The tick condition when the process keeps its kind. -/
theorem Invariant.ticks_keep {s s' : State} {pid : Pid} (hinv : Invariant s)
    (hothers : ∀ qid, qid ≠ pid → s'.process qid = s.process qid)
    (hrunning : s'.running = s.running)
    (hkind : ∀ p', s'.process pid = some p' → p'.isTick = true →
      ∃ p, s.process pid = some p ∧ p.isTick = true) :
    ∀ qid q, s'.process qid = some q → q.isTick = true →
      s'.running = true ∧ ∀ rid r, s'.process rid = some r → r.isTick = true → rid = qid := by
  have hback : ∀ qid q, s'.process qid = some q → q.isTick = true →
      ∃ p, s.process qid = some p ∧ p.isTick = true := by
    intro qid q hq htick
    by_cases hpid : qid = pid
    · subst hpid
      exact hkind q hq htick
    · exact ⟨q, by rw [← hothers qid hpid]; exact hq, htick⟩
  intro qid q hq htick
  rcases hback qid q hq htick with ⟨p, hp, hptick⟩
  rcases hinv.ticks qid p hp hptick with ⟨hrun, huniq⟩
  refine ⟨hrunning.trans hrun, ?_⟩
  intro rid r hr hrtick
  rcases hback rid r hr hrtick with ⟨p', hp', hptick'⟩
  exact huniq rid p' hp' hptick'

/-- The tick condition after the only tick has ended. -/
theorem Invariant.ticks_end {s s' : State} {pid : Pid} (hinv : Invariant s) {p : Process}
    (hp : s.process pid = some p) (htick : p.isTick = true)
    (hothers : ∀ qid, qid ≠ pid → s'.process qid = s.process qid) (hgone : s'.process pid = none) :
    ∀ qid q, s'.process qid = some q → q.isTick = true →
      s'.running = true ∧ ∀ rid r, s'.process rid = some r → r.isTick = true → rid = qid := by
  -- any tick left over would have been a second one before
  intro qid q hq hqtick
  have hpid : qid ≠ pid := by
    rintro rfl
    rw [hgone] at hq
    cases hq
  rw [hothers qid hpid] at hq
  exact absurd ((hinv.ticks pid p hp htick).2 qid q hq hqtick) hpid

/-! ## Steps of a process -/

/-- An attempt can start on any row whose transactions are accounted for. -/
theorem busy_startAttempt {store : Store} {caller : Caller} {row : SettlementRow}
    (hstored : ∃ row', store.find row.id = some row' ∧ caller.expects row'.status = true)
    (hstatus : caller.expects row.status = true) (howns : Owns store.transactions row.id row.txHash)
    (hknown : Known store.transactions row.id row.txHash) :
    Busy store caller (startAttempt row).1 (startAttempt row).2 := by
  cases hhash : row.txHash with
  | none =>
      -- a live transaction would have its hash in the row
      have hnone : NoneLive store.transactions row.id := by
        intro tx htx hid
        by_contra hlive
        have hEq := howns tx htx hid (by simpa using hlive)
        simp [hhash] at hEq
      have hstart : startAttempt row =
          ({ row with attempts := row.attempts + 1 }, .assertGasWithinCap) := by
        simp [startAttempt, hhash]
      rw [hstart]
      exact ⟨hstored, fun _ => hstatus, howns, hknown, hnone⟩
  | some hash =>
      have hstart : startAttempt row =
          ({ row with attempts := row.attempts + 1 }, .getTransactionReceipt) := by
        simp [startAttempt, hhash]
      rw [hstart]
      exact ⟨hstored, fun _ => hstatus, howns, hknown, trivial⟩

theorem startAttempt_id (row : SettlementRow) : (startAttempt row).1.id = row.id := by
  cases hhash : row.txHash with
  | none => simp [startAttempt, hhash]
  | some hash => simp [startAttempt, hhash]

section Moving

variable {s : State} {pid : Pid} {store' : Store} {touched : List SettlementId}

/-- Nothing is touched. -/
theorem Invariant.local_nil (hinv : Invariant s) (h : ∀ p, s.process pid = some p → p.held = []) :
    Local s pid s.store [] where
  store := hinv.store
  frame := fun id _ => ⟨rfl, Evolved.refl id _⟩
  alone := by
    intro qid q _ _ id hid
    cases hid
  before := by
    intro p hp id hid
    rw [h p hp] at hid
    cases hid

/-- The process ends. -/
theorem exit_moves (hlocal : Local s pid store' touched) (hinv : Invariant s)
    (hreleased : ∀ id ∈ touched, ∀ row, store'.find id = some row →
      RowSound store'.transactions row) :
    Moves s ({ s with store := store' }.exit pid) pid touched := by
  have hothers : ∀ qid, qid ≠ pid →
      ({ s with store := store' }.exit pid).process qid = s.process qid :=
    fun qid hqid => process_exit_of_ne { s with store := store' } pid hqid
  have hgone : ({ s with store := store' }.exit pid).process pid = none :=
    process_exit_self { s with store := store' } pid
  have hnone : ∀ p, ({ s with store := store' }.exit pid).process pid ≠ some p := by
    intro p hp
    rw [hgone] at hp
    cases hp
  exact
    { toLocal := hlocal
      others := hothers
      after := fun p hp => absurd hp (hnone p)
      released := fun id hid _ => hreleased id hid
      ticks := hinv.ticks_keep hothers rfl (fun p hp => absurd hp (hnone p)) }

/-- A tick ends. -/
theorem endTick_moves (hlocal : Local s pid store' touched) (hinv : Invariant s) {p : Process}
    (hp : s.process pid = some p) (htick : p.isTick = true)
    (hreleased : ∀ id ∈ touched, ∀ row, store'.find id = some row →
      RowSound store'.transactions row) :
    Moves s { ({ s with store := store' }.exit pid) with running := false } pid touched := by
  have hexit := exit_moves hlocal hinv hreleased
  exact
    { toLocal := hlocal
      others := hexit.others
      after := hexit.after
      released := hexit.released
      ticks := hinv.ticks_end hp htick hexit.others (process_exit_self { s with store := store' } pid) }

/-- The process goes on as another one. -/
theorem spawn_moves (hlocal : Local s pid store' touched) (hinv : Invariant s) {p' : Process}
    (hsound : ProcessSound store' p') (hheld : ∀ id ∈ p'.held, id ∈ touched)
    (hreleased : ∀ id ∈ touched, id ∉ p'.held → ∀ row, store'.find id = some row →
      RowSound store'.transactions row)
    (hkind : p'.isTick = true → ∃ p, s.process pid = some p ∧ p.isTick = true) :
    Moves s ({ s with store := store' }.spawn pid p') pid touched := by
  have hothers : ∀ qid, qid ≠ pid →
      ({ s with store := store' }.spawn pid p').process qid = s.process qid :=
    fun qid hqid => process_spawn_of_ne { s with store := store' } pid p' hqid
  have hnew : ({ s with store := store' }.spawn pid p').process pid = some p' :=
    process_spawn_self { s with store := store' } pid p'
  have hEq : ∀ q, ({ s with store := store' }.spawn pid p').process pid = some q → q = p' := by
    intro q hq
    rw [hnew] at hq
    exact (Option.some.inj hq).symm
  exact
    { toLocal := hlocal
      others := hothers
      after := by
        intro q hq
        rw [hEq q hq]
        exact ⟨hsound, hheld⟩
      released := fun id hid hfree => hreleased id hid (hfree p' hnew)
      ticks := hinv.ticks_keep hothers rfl (fun q hq htick => hkind (hEq q hq ▸ htick)) }

/-- A tick goes on to its next due settlement, or ends. -/
theorem nextDue_moves (hlocal : Local s pid store' touched) (hinv : Invariant s) {p : Process}
    (hp : s.process pid = some p) (htick : p.isTick = true) {rest : List SettlementRow}
    (hqueued : ∀ row ∈ rest, Queued store' row) (hnodup : (rest.map (·.id)).Nodup)
    (hsub : ∀ row ∈ rest, row.id ∈ touched)
    (hreleased : ∀ id ∈ touched, id ∉ rest.map (·.id) → ∀ row, store'.find id = some row →
      RowSound store'.transactions row) (now : Time) :
    Moves s ({ s with store := store' }.nextDue pid now rest) pid touched := by
  cases rest with
  | nil =>
      exact endTick_moves hlocal hinv hp htick (fun id hid => hreleased id hid (by simp))
  | cons row rest =>
      have hrow := hqueued row (by simp)
      have hheld : (Process.attempt (.processDue rest) now (startAttempt row).1
          (startAttempt row).2).held = (row :: rest).map (·.id) := by
        simp [Process.held, startAttempt_id]
      have hbusy : Busy store' (.processDue rest) (startAttempt row).1 (startAttempt row).2 :=
        busy_startAttempt ⟨row, hrow.stored, by simp [Caller.expects, hrow.status]⟩
          (by simp [Caller.expects, hrow.status]) hrow.sound.owns hrow.sound.known
      refine spawn_moves hlocal hinv ⟨hbusy, fun r hr => hqueued r (by simp [hr]), ?_⟩ ?_ ?_
        (fun _ => ⟨p, hp, htick⟩)
      · rw [startAttempt_id]
        exact hnodup
      · intro id hid
        rw [hheld] at hid
        rcases List.mem_map.1 hid with ⟨r, hr, rfl⟩
        exact hsub r hr
      · intro id hid hnot
        rw [hheld] at hnot
        exact hreleased id hid hnot

end Moving

section Resuming

variable {cfg : Config} {s : State} {pid : Pid} {now : Time}

/-- The frame of a step of an attempt: only its own settlement changes. -/
theorem Progress.toLocal {store' : Store} {caller : Caller} {entity : SettlementRow} {stage : Stage}
    (hprogress : Progress s.store store' entity) (hinv : Invariant s)
    (hp : s.process pid = some (.attempt caller now entity stage))
    (hmem : entity.id ∈ (Process.attempt caller now entity stage).held) :
    Local s pid store' (Process.attempt caller now entity stage).held where
  store := hprogress.sound
  frame := fun id hid => hprogress.frame id (fun hEq => hid (hEq ▸ hmem))
  alone := fun qid q hqid hq id hid => hinv.exclusive pid qid _ q hp hq (Ne.symm hqid) id hid
  before := by
    intro q hq id hid
    rw [hp] at hq
    cases hq
    exact hid

/-- An attempt started by a request takes a step. -/
theorem request_moves {store' : Store} {caller : Caller} {entity : SettlementRow} {stage : Stage}
    {flow : Flow} (hinv : Invariant s) (hp : s.process pid = some (.attempt caller now entity stage))
    (hcaller : caller = .settleBatch ∨ caller = .replay)
    (hprogress : Progress s.store store' entity) (hflow : FlowSound store' caller entity flow) :
    Moves s ({ s with store := store' }.proceed pid caller now flow) pid [entity.id] := by
  have hheld : ∀ next stage', (Process.attempt caller now next stage').held = [next.id] := by
    rcases hcaller with rfl | rfl
    · exact fun _ _ => rfl
    · exact fun _ _ => rfl
  have hsound : ∀ next stage', Busy store' caller next stage' →
      ProcessSound store' (.attempt caller now next stage') := by
    rcases hcaller with rfl | rfl
    · exact fun _ _ h => h
    · exact fun _ _ h => h
  have hkind : ∀ next stage', (Process.attempt caller now next stage').isTick = false := by
    rcases hcaller with rfl | rfl
    · exact fun _ _ => rfl
    · exact fun _ _ => rfl
  have hlocal := hprogress.toLocal hinv hp (by simp [hheld])
  rw [hheld] at hlocal
  cases flow with
  | await next stage' =>
      rcases hflow with ⟨hid, hbusy⟩
      refine spawn_moves hlocal hinv (hsound next stage' hbusy) (by simp [hheld, hid]) ?_
        (by simp [hkind])
      intro id hmem hnot
      exact absurd (by simpa [hheld, hid] using hmem) hnot
  | returned =>
      rcases hflow with ⟨row, hrow, hrowSound⟩
      have hexit := exit_moves hlocal hinv (by
        intro id hid row' hrow'
        rw [List.mem_singleton.1 hid, hrow] at hrow'
        cases hrow'
        exact hrowSound)
      rcases hcaller with rfl | rfl
      · exact hexit
      · exact hexit
  | thrown error =>
      exact absurd hflow id

/-- The attempt of a tick takes a step. -/
theorem tick_moves {store' : Store} {rest : List SettlementRow} {entity : SettlementRow}
    {stage : Stage} {flow : Flow} (hinv : Invariant s)
    (hp : s.process pid = some (.attempt (.processDue rest) now entity stage))
    (hprogress : Progress s.store store' entity)
    (hflow : FlowSound store' (.processDue rest) entity flow) :
    Moves s ({ s with store := store' }.proceed pid (.processDue rest) now flow) pid
      (entity.id :: rest.map (·.id)) := by
  rcases hinv.processes pid _ hp with ⟨_, hqueued, hnodup⟩
  have hlocal := hprogress.toLocal hinv hp (by simp [Process.held])
  have hcons := List.nodup_cons.1 hnodup
  -- the settlements still queued are not the one being attempted
  have hqueued' : ∀ row ∈ rest, Queued store' row := by
    intro row hrow
    have hne : row.id ≠ entity.id := by
      intro hEq
      exact hcons.1 (List.mem_map.2 ⟨row, hrow, hEq⟩)
    rcases hprogress.frame row.id hne with ⟨hfind, hev⟩
    rcases hqueued row hrow with ⟨hstored, hstatus, hsound⟩
    exact ⟨hfind.trans hstored, hstatus, hsound.mono hev⟩
  cases flow with
  | await next stage' =>
      rcases hflow with ⟨hid, hbusy⟩
      have hheld : (Process.attempt (.processDue rest) now next stage').held =
          entity.id :: rest.map (·.id) := by
        simp [Process.held, hid]
      refine spawn_moves hlocal hinv ⟨hbusy, hqueued', by rw [hid]; exact hnodup⟩ ?_ ?_
        (fun _ => ⟨_, hp, rfl⟩)
      · intro id hmem
        rw [hheld] at hmem
        exact hmem
      · intro id hmem hnot
        rw [hheld] at hnot
        exact absurd hmem hnot
  | returned =>
      rcases hflow with ⟨row, hrow, hrowSound⟩
      refine nextDue_moves hlocal hinv hp rfl hqueued' hcons.2
        (fun r hr => List.mem_cons_of_mem _ (List.mem_map.2 ⟨r, hr, rfl⟩)) ?_ now
      -- only the settlement just written is given up; the rest stays held
      intro id hmem hnot row' hrow'
      have hEq : id = entity.id := by
        rcases List.mem_cons.1 hmem with hEq | hrest
        · exact hEq
        · exact absurd hrest hnot
      rw [hEq, hrow] at hrow'
      cases hrow'
      exact hrowSound
  | thrown error =>
      exact absurd hflow id

/-- `settleBatch` has written its row. -/
theorem insert_moves (now : Time) {entity : SettlementRow} (hinv : Invariant s)
    (hp : s.process pid = some (.insert entity)) (hfresh : s.store.find entity.id = none) :
    Moves s ({ s with store := s.store.save entity }.exit pid) pid [entity.id] ∧
      Moves s ({ s with store := s.store.save entity }.spawn pid
        (.attempt .settleBatch now (startAttempt entity).1 (startAttempt entity).2)) pid
        [entity.id] := by
  rcases hinv.processes pid _ hp with ⟨hpending, hnoHash⟩
  -- the id is new, and every transaction belongs to a stored row
  have hnoTx : ∀ tx ∈ s.store.transactions, tx.settlementId ≠ entity.id := by
    intro tx htx hid
    rcases hinv.store.parents tx htx with ⟨row, hrow⟩
    rw [hid, hfresh] at hrow
    cases hrow
  have howns : Owns s.store.transactions entity.id entity.txHash :=
    fun tx htx hid _ => absurd hid (hnoTx tx htx)
  have hknown : Known s.store.transactions entity.id entity.txHash := by
    intro h hh
    rw [hnoHash] at hh
    cases hh
  have hlocal : Local s pid (s.store.save entity) [entity.id] :=
    { store := hinv.store.save entity
      frame := fun id hid => ⟨find_save_of_ne (by simpa using hid), Evolved.refl id _⟩
      alone := by
        intro qid q _ hq id hid hheld
        rcases (hinv.processes qid q hq).stored hheld with ⟨row, hrow, _⟩
        rw [List.mem_singleton.1 hid, hfresh] at hrow
        cases hrow
      before := by
        intro q hq id hid
        rw [hp] at hq
        cases hq
        simp [Process.held] at hid }
  have hexpects : Caller.settleBatch.expects entity.status = true := by
    simp [Caller.expects, hpending]
  have hbusy : Busy (s.store.save entity) .settleBatch (startAttempt entity).1
      (startAttempt entity).2 :=
    busy_startAttempt ⟨entity.stored, find_save_self s.store entity, hexpects⟩ hexpects howns hknown
  refine ⟨exit_moves hlocal hinv ?_, spawn_moves hlocal hinv hbusy ?_ ?_ (by simp [Process.isTick])⟩
  · intro id hid row hrow
    rw [List.mem_singleton.1 hid, find_save_self] at hrow
    cases hrow
    refine ⟨howns, hknown, ?_⟩
    intro hsettled
    rw [stored_status, hpending] at hsettled
    cases hsettled
  · intro id hid
    simpa [Process.held, startAttempt_id] using hid
  · intro id hid hnot
    exact absurd (by simpa [Process.held, startAttempt_id] using hid) hnot

/-- A row whose status no holder could have is at rest. -/
theorem Invariant.resting_of_status (hinv : Invariant s) {id : SettlementId} {row : SettlementRow}
    (hrow : s.store.find id = some row)
    (hother : ∀ qid q, s.process qid = some q → id ∈ q.held → ∀ row', s.store.find id = some row' →
      ¬ ((q.isTick = true ∧ row'.status = .retrying) ∨
        (q.isTick = false ∧ row'.status = .pending) ∨
        (q.isTick = false ∧ replayable row'.status = true ∧
          ∃ now entity stage, q = .attempt .replay now entity stage))) :
    (∀ qid q, s.process qid = some q → id ∉ q.held) ∧ RowSound s.store.transactions row := by
  have hfree : ∀ qid q, s.process qid = some q → id ∉ q.held := by
    intro qid q hq hheld
    rcases (hinv.processes qid q hq).stored hheld with ⟨row', hrow', hcases⟩
    exact hother qid q hq hheld row' hrow' hcases
  exact ⟨hfree, hinv.resting id row hrow hfree⟩

/-- `replay` takes up a row that no other replay is working on. -/
theorem replay_moves {id : SettlementId} {row : SettlementRow} (hinv : Invariant s)
    (hp : s.process pid = some (.findById id)) (hrow : s.store.find id = some row)
    (hstatus : replayable row.status = true)
    (hno : ∀ qid now entity stage, s.process qid = some (.attempt .replay now entity stage) →
      entity.id ≠ id) :
    Moves s (s.spawn pid (.attempt .replay now (startAttempt { row with attempts := 0 }).1
      (startAttempt { row with attempts := 0 }).2)) pid [id] := by
  have hid : row.id = id := Table.key_of_lookup hrow
  -- a tick holds retrying rows and a first attempt pending ones, so only a replay could hold it
  have hrest := hinv.resting_of_status hrow (by
    intro qid q hq hheld row' hrow' hcases
    rw [hrow] at hrow'
    cases hrow'
    rcases hcases with ⟨_, hretrying⟩ | ⟨_, hpending⟩ | ⟨_, _, now', entity, stage, rfl⟩
    · simp [replayable, hretrying] at hstatus
    · simp [replayable, hpending] at hstatus
    · have hEq : id = entity.id := by simpa [Process.held] using hheld
      exact hno qid now' entity stage hq hEq.symm)
  have hlocal : Local s pid s.store [id] :=
    { store := hinv.store
      frame := fun j _ => ⟨rfl, Evolved.refl j _⟩
      alone := by
        intro qid q _ hq j hj
        rw [List.mem_singleton.1 hj]
        exact hrest.1 qid q hq
      before := by
        intro q hq j hj
        rw [hp] at hq
        cases hq
        simp [Process.held] at hj }
  have hbusy : Busy s.store .replay (startAttempt { row with attempts := 0 }).1
      (startAttempt { row with attempts := 0 }).2 :=
    busy_startAttempt ⟨row, by rw [hid]; exact hrow, hstatus⟩ hstatus hrest.2.owns hrest.2.known
  refine spawn_moves hlocal hinv hbusy ?_ ?_ (by simp [Process.isTick])
  · intro j hj
    simpa [Process.held, startAttempt_id, hid] using hj
  · intro j hj hnot
    exact absurd (by simpa [Process.held, startAttempt_id, hid] using hj) hnot

theorem mem_findDueRetries {store : Store} {tick : Time} {limit : Nat} {row : SettlementRow}
    (h : row ∈ findDueRetries store tick limit) :
    row ∈ store.settlements ∧ row.status = .retrying := by
  have hmem : row ∈ store.settlements.filter (isDue tick) :=
    (List.mem_insertionSort _).1 (List.mem_of_mem_take h)
  rcases List.mem_filter.1 hmem with ⟨hrow, hdue⟩
  simp only [isDue, Bool.and_eq_true, decide_eq_true_eq] at hdue
  exact ⟨hrow, hdue.1⟩

theorem nodup_findDueRetries {store : Store} (hkeyed : Table.Keyed SettlementRow.id store.settlements)
    (tick : Time) (limit : Nat) :
    ((findDueRetries store tick limit).map (·.id)).Nodup := by
  have hfilter : ((store.settlements.filter (isDue tick)).map (·.id)).Nodup :=
    List.Nodup.sublist (List.Sublist.map _ List.filter_sublist) hkeyed
  have hsorted := ((List.perm_insertionSort
    (fun a b : SettlementRow => a.nextRetryAt.getD 0 ≤ b.nextRetryAt.getD 0)
    (store.settlements.filter (isDue tick))).map (·.id)).nodup_iff.2 hfilter
  exact List.Nodup.sublist (List.Sublist.map _ (List.take_sublist _ _)) hsorted

/-- The rows that are due are at rest: only a tick holds retrying rows, and this one is the only
tick. -/
theorem findDueRetries_free {tick : Time} (hinv : Invariant s)
    (hp : s.process pid = some (.findDueRetries tick)) {row : SettlementRow}
    (hdue : row ∈ findDueRetries s.store tick cfg.batchSize) :
    (∀ qid q, s.process qid = some q → row.id ∉ q.held) ∧ RowSound s.store.transactions row := by
  rcases mem_findDueRetries hdue with ⟨hmem, hstatus⟩
  have hstored : s.store.find row.id = some row := Table.lookup_of_mem hinv.store.rows hmem
  refine hinv.resting_of_status hstored ?_
  intro qid q hq hheld row' hrow' hcases
  rw [hstored] at hrow'
  cases hrow'
  rcases hcases with ⟨htick, _⟩ | ⟨_, hpending⟩ | ⟨_, hreplay, _⟩
  · have hEq : qid = pid := (hinv.ticks pid _ hp rfl).2 qid q hq htick
    subst hEq
    rw [hp] at hq
    cases hq
    simp [Process.held] at hheld
  · rw [hstatus] at hpending
    cases hpending
  · simp [replayable, hstatus] at hreplay

/-- A tick has read the rows that are due. -/
theorem findDueRetries_moves {tick : Time} (hinv : Invariant s)
    (hp : s.process pid = some (.findDueRetries tick)) :
    Moves s (s.nextDue pid tick (findDueRetries s.store tick cfg.batchSize)) pid
      ((findDueRetries s.store tick cfg.batchSize).map (·.id)) := by
  have hfind : ∀ row ∈ findDueRetries s.store tick cfg.batchSize,
      s.store.find row.id = some row ∧ row.status = .retrying := by
    intro row hrow
    rcases mem_findDueRetries hrow with ⟨hmem, hstatus⟩
    exact ⟨Table.lookup_of_mem hinv.store.rows hmem, hstatus⟩
  have hrest : ∀ row ∈ findDueRetries s.store tick cfg.batchSize,
      (∀ qid q, s.process qid = some q → row.id ∉ q.held) ∧ RowSound s.store.transactions row :=
    fun row hrow => findDueRetries_free hinv hp hrow
  have hlocal : Local s pid s.store ((findDueRetries s.store tick cfg.batchSize).map (·.id)) :=
    { store := hinv.store
      frame := fun j _ => ⟨rfl, Evolved.refl j _⟩
      alone := by
        intro qid q _ hq j hj
        rcases List.mem_map.1 hj with ⟨row, hrow, rfl⟩
        exact (hrest row hrow).1 qid q hq
      before := by
        intro q hq j hj
        rw [hp] at hq
        cases hq
        simp [Process.held] at hj }
  refine nextDue_moves hlocal hinv hp rfl ?_ (nodup_findDueRetries hinv.store.rows tick _)
    (fun row hrow => List.mem_map.2 ⟨row, hrow, rfl⟩) (fun id hid hnot => absurd hid hnot) tick
  intro row hrow
  rcases hfind row hrow with ⟨hstored, hstatus⟩
  exact ⟨hstored, hstatus, (hrest row hrow).2⟩

end Resuming

end Settlement
end PaymentRail
