import PaymentRail.Collections.DueQueue
import PaymentRail.Machine.Backlog
import PaymentRail.Webhooks.DeliveryAttempts

/-!
# DeliveriesReached — no delivery is overlooked for ever

A tick takes at most `batchSize` of the deliveries that are due, those that are due longest first, and
there is one tick at a time.  What fails again is due again after the time its call was made at.  So the
deliveries that were due no later than a given one are a backlog that only shrinks, by a whole batch
whenever a tick passes the delivery over (`deliveries_passed_over_bound`); new events do not push it
back, however many they are.
-/

namespace PaymentRail
namespace Webhooks

open Machine Collections

/-! ## What a call has in hand -/

/-- The time the call was made at. -/
def Process.begun : Process → Time
  | .findActive _ _ now => now
  | .fanOut _ _ now _ => now
  | .findDueDeliveries now => now
  | .findSubscription tick _ => tick.now
  | .giveUp tick _ => tick.now
  | .redeliver tick _ => tick.now

def Task.inserts : Task → Bool
  | .insert _ => true
  | .deliver _ => false

/-- A call of `emit` that has not inserted all of its rows yet. -/
def Process.inserts : Process → Bool
  | .findActive _ _ _ => true
  | .fanOut _ _ _ tasks => tasks.any fun entry => entry.2.inserts
  | _ => false

/-- A call that goes on so has the row in hand. -/
def Hands (flow : Flow Process Answer) (id : DeliveryId) : Prop := ∃ q, flow = .await q ∧ id ∈ q.rows

/-- What a step of the call `p` does with the rows it has in hand and with those that are due by `t`. -/
structure Handles (cfg : Config) (t : Time) (p : Process) (store store' : Store)
    (flow : Flow Process Answer) : Prop where
  begun : flow.Awaits fun q => q.begun = p.begun
  inserts : flow.Awaits fun q => q.inserts = true → p.inserts = true
  /-- It takes up new rows, and those it finds due. -/
  taken : flow.Awaits fun q => ∀ id ∈ q.rows, id ∈ p.rows ∨
    (p.inserts = true ∧ store.findDelivery id = none) ∨
    ∃ now, p = .findDueDeliveries now ∧
      id ∈ (findDueDeliveries store now cfg.batchSize).map WebhookDelivery.id
  kept : ∀ row ∈ store.deliveries, row.id ∉ p.rows → row ∈ store'.deliveries
  /-- A row that is due was so before, or it was in hand since before `t`. -/
  due : ∀ row ∈ store'.deliveries, isDue t row = true →
    (row ∈ store.deliveries ∧ (row.id ∈ p.rows → Hands flow row.id)) ∨
      (row.id ∈ p.rows ∧ p.begun < t)

section Due

variable {cfg : Config} {store : Store} {now t : Time} {limit : Nat} {row : WebhookDelivery}

/-- The deliveries that have failed are a queue. -/
theorem isDue_eq (t : Time) : isDue t =
    DueQueue.due (fun row => row.status = .failed) WebhookDelivery.nextAttemptAt t := rfl

theorem findDueDeliveries_eq (store : Store) (now : Time) (limit : Nat) :
    findDueDeliveries store now limit =
      DueQueue.first (fun row => row.status = .failed) WebhookDelivery.nextAttemptAt store.deliveries
        now limit := rfl

theorem isDue_iff : isDue t row = true ↔
    row.status = .failed ∧ ∃ next, row.nextAttemptAt = some next ∧ next ≤ t := by
  rw [isDue_eq, DueQueue.due_iff, decide_eq_true_iff]

theorem isDue_mono (h : isDue now row = true) (hle : now ≤ t) : isDue t row = true := by
  rw [isDue_eq] at h ⊢
  exact DueQueue.due_mono h hle

theorem backoffMs_pos (hbase : 0 < cfg.baseDelayMs) (hdelay : 0 < cfg.maxDelayMs) (attempts : Nat) :
    0 < cfg.backoffMs attempts :=
  Nat.lt_min.2 ⟨Nat.mul_pos hbase (Nat.pow_pos (by decide)), hdelay⟩

/-- What fails again is due again after its call was made. -/
theorem Outcome.later (hbase : 0 < cfg.baseDelayMs) (hdelay : 0 < cfg.maxDelayMs)
    (h : Outcome cfg now row) (hdue : isDue t row = true) : now < t := by
  rcases isDue_iff.1 hdue with ⟨hfailed, next, hnext, hle⟩
  have hafter := (h.failed hfailed).2
  rw [hnext] at hafter
  cases hafter
  exact lt_of_lt_of_le (Nat.lt_add_of_pos_right (backoffMs_pos hbase hdelay row.attempts)) hle

end Due

/-! ## Saves -/

section Saves

variable {cfg : Config} {t : Time} {p : Process} {store store' : Store} {flow : Flow Process Answer}
  {entity : WebhookDelivery}

theorem kept_saveDelivery (hentity : entity.id ∈ p.rows) :
    ∀ row ∈ store.deliveries, row.id ∉ p.rows → row ∈ (store.saveDelivery entity).deliveries := by
  intro row hrow hnot
  refine mem_saveDelivery.2 (Or.inr ⟨hrow, ?_⟩)
  intro hid
  exact hnot (hid ▸ hentity)

/-- The call saves one row and keeps the others in hand. -/
theorem due_saveDelivery (hentity : entity.id ∈ p.rows) (hlater : isDue t entity = true → p.begun < t)
    (hothers : ∀ row ∈ store.deliveries, isDue t row = true → row.id ≠ entity.id → row.id ∈ p.rows →
      Hands flow row.id) :
    ∀ row ∈ (store.saveDelivery entity).deliveries, isDue t row = true →
      (row ∈ store.deliveries ∧ (row.id ∈ p.rows → Hands flow row.id)) ∨
        (row.id ∈ p.rows ∧ p.begun < t) := by
  intro row hrow hdue
  rcases mem_saveDelivery.1 hrow with rfl | ⟨hold, hne⟩
  · exact Or.inr ⟨hentity, hlater hdue⟩
  · exact Or.inl ⟨hold, hothers row hold hdue hne⟩

end Saves

/-! ## The steps of `emit` -/

section Emit

variable {cfg : Config} {t : Time} {store store' : Store} {event : WebhookEvent} {data : Payload}
  {now : Time} {tasks : List (SubscriptionId × Task)} {key : SubscriptionId} {a a' : Attempt}
  {reply : Reply}

/-- The rows of `emit` are pending, so none of them is due. -/
theorem notDue_of_emit {p : Process} (hs : StoreSound cfg store) (hp : Sound cfg store p)
    (hemit : p.isTick ≠ true) {row : WebhookDelivery} (hrow : row ∈ store.deliveries)
    (hdue : isDue t row = true) : row.id ∉ p.rows := by
  intro hid
  rcases hp.pending hemit hid with ⟨pending, hpending, hEq, hstatus⟩
  rw [hs.keyed.eq_of_key hpending hrow hEq, (isDue_iff.1 hdue).1] at hstatus
  cases hstatus

theorem inserts_put (h : (Process.fanOut event data now
    (Table.put Prod.fst tasks (key, .deliver a))).inserts = true) :
    (Process.fanOut event data now tasks).inserts = true := by
  rcases List.any_eq_true.1 h with ⟨entry, hentry, hinserts⟩
  rcases mem_put_task hentry with rfl | ⟨hmem, _⟩
  · cases hinserts
  · exact List.any_eq_true.2 ⟨entry, hmem, hinserts⟩

theorem inserts_drop
    (h : (Process.fanOut event data now (Table.drop Prod.fst tasks key)).inserts = true) :
    (Process.fanOut event data now tasks).inserts = true := by
  rcases List.any_eq_true.1 h with ⟨entry, hentry, hinserts⟩
  exact List.any_eq_true.2 ⟨entry, (Table.mem_drop.1 hentry).1, hinserts⟩

theorem handles_foundActive :
    Handles cfg t (.findActive event data now) store store
      (fanOut event data now (interested store event)) where
  begun := fanOut_awaits rfl
  inserts := fanOut_awaits fun _ => rfl
  taken := by
    apply fanOut_awaits
    intro id hid
    rcases List.mem_filterMap.1 hid with ⟨⟨key, task⟩, hentry, hrow⟩
    cases task with
    | insert subscription => cases hrow
    | deliver a => exact absurd hentry deliver_notMem_interested
  kept := fun _ hrow _ => hrow
  due := fun _ hrow _ => Or.inl ⟨hrow, fun hid => absurd hid List.not_mem_nil⟩

theorem handles_inserted {subscription : WebhookSubscription} {id : DeliveryId}
    (hs : StoreSound cfg store) (hp : Sound cfg store (.fanOut event data now tasks))
    (htask : (key, Task.insert subscription) ∈ tasks) (hnew : store.findDelivery id = none)
    (hsent : Sent cfg now (newDelivery id subscription event data store.clock) subscription
      (store.saveDelivery (newDelivery id subscription event data store.clock)) store' a) :
    Handles cfg t (.fanOut event data now tasks) store store'
      (fanOut event data now (Table.put Prod.fst tasks (key, .deliver a))) := by
  rcases sent_spec hsent with ⟨post, rfl, rfl, _⟩
  refine ⟨fanOut_awaits rfl, fanOut_awaits inserts_put, fanOut_awaits ?_, ?_, ?_⟩
  · intro k hk
    rcases rows_put hk with rfl | hold
    · refine Or.inr (Or.inl ⟨?_, hnew⟩)
      exact List.any_eq_true.2 ⟨_, htask, rfl⟩
    · exact Or.inl hold
  · intro row hrow _
    refine mem_saveDelivery.2 (Or.inr ⟨hrow, ?_⟩)
    exact Table.lookup_eq_none.1 hnew row hrow
  · intro row hrow hdue
    rcases mem_saveDelivery.1 hrow with rfl | ⟨hold, _⟩
    · -- a new row is pending
      exact absurd (isDue_iff.1 hdue).1 nofun
    · exact Or.inl ⟨hold, fun hid => absurd hid (notDue_of_emit hs hp nofun hold hdue)⟩

theorem handles_task (hs : StoreSound cfg store)
    (hp : Sound cfg store (.fanOut event data now tasks)) (htask : (key, Task.deliver a) ∈ tasks)
    (h : Delivers cfg now store a reply store' (.await a')) :
    Handles cfg t (.fanOut event data now tasks) store store'
      (fanOut event data now (Table.put Prod.fst tasks (key, .deliver a'))) := by
  have hcont := continues_of_delivers h (hp.1 key a htask).1
  refine ⟨fanOut_awaits rfl, fanOut_awaits inserts_put, fanOut_awaits ?_, ?_, ?_⟩
  · intro id hid
    rcases rows_put hid with rfl | hold
    · rw [hcont.same.id]
      exact Or.inl (mem_rows_of_task htask)
    · exact Or.inl hold
  · intro row hrow _
    rw [hcont.deliveries]
    exact hrow
  · intro row hrow hdue
    rw [hcont.deliveries] at hrow
    exact Or.inl ⟨hrow, fun hid => absurd hid (notDue_of_emit hs hp nofun hrow hdue)⟩

theorem handles_taskReturned (hbase : 0 < cfg.baseDelayMs) (hdelay : 0 < cfg.maxDelayMs)
    {delivery : WebhookDelivery} (hs : StoreSound cfg store)
    (hp : Sound cfg store (.fanOut event data now tasks)) (htask : (key, Task.deliver a) ∈ tasks)
    (h : Delivers cfg now store a reply store' (.returned delivery)) :
    Handles cfg t (.fanOut event data now tasks) store store'
      (fanOut event data now (Table.drop Prod.fst tasks key)) := by
  rcases returned_of_delivers h with ⟨rfl, rfl, hstage⟩
  have hmem : a.delivery.id ∈ (Process.fanOut event data now tasks).rows := mem_rows_of_task htask
  have houtcome := (hp.1 key a htask).1.outcome hstage
  refine ⟨fanOut_awaits rfl, fanOut_awaits inserts_drop, fanOut_awaits ?_, kept_saveDelivery hmem, ?_⟩
  · exact fun id hid => Or.inl (rows_drop hid)
  · refine due_saveDelivery hmem (fun hdue => houtcome.later hbase hdelay hdue) ?_
    exact fun row hrow hdue _ hid => absurd hid (notDue_of_emit hs hp nofun hrow hdue)

end Emit

/-! ## The steps of a tick -/

section Ticks

variable {cfg : Config} {t : Time} {store saved store' : Store} {tick : Tick}
  {delivery : WebhookDelivery} {a a' : Attempt} {reply : Reply} {flow : Flow Process Answer}

/-- A tick that goes on has in hand what is left of it. -/
structure Resumed (tick : Tick) (flow : Flow Process Answer) : Prop where
  begun : flow.Awaits fun q => q.begun = tick.now
  inserts : flow.Awaits fun q => q.inserts = false
  rows : flow.Awaits fun q => q.rows = tick.rest.map WebhookDelivery.id
  hands : ∀ id ∈ tick.rest.map WebhookDelivery.id, Hands flow id

theorem resumed_nextDue (h : nextDue tick saved = (store', flow)) :
    store'.deliveries = saved.deliveries ∧ Resumed tick flow := by
  rcases nextDue_cases h with ⟨hrest, rfl, rfl⟩ | ⟨next, rest, hrest, rfl, rfl⟩
  · refine ⟨rfl, trivial, trivial, trivial, ?_⟩
    rw [hrest]
    exact fun id hid => absurd hid List.not_mem_nil
  · refine ⟨rfl, rfl, rfl, ?_, ?_⟩
    · rw [hrest]
      rfl
    · rw [hrest]
      exact fun id hid => ⟨_, rfl, hid⟩

theorem handles_foundDue {now : Time}
    (h : nextDue ⟨now, findDueDeliveries store now cfg.batchSize, ⟨true, 0, 0, 0⟩⟩ store =
      (store', flow)) : Handles cfg t (.findDueDeliveries now) store store' flow := by
  rcases resumed_nextDue h with ⟨hdeliveries, hresumed⟩
  refine ⟨hresumed.begun, hresumed.inserts.imp ?_, hresumed.rows.imp ?_, ?_, ?_⟩
  · intro q hq hinserts
    rw [hq] at hinserts
    cases hinserts
  · intro q hq id hid
    rw [hq] at hid
    exact Or.inr (Or.inr ⟨now, rfl, hid⟩)
  · intro row hrow _
    rw [hdeliveries]
    exact hrow
  · intro row hrow _
    rw [hdeliveries] at hrow
    exact Or.inl ⟨hrow, fun hid => absurd hid List.not_mem_nil⟩

/-- A tick goes on with the same rows in hand and writes none of them. -/
theorem handles_same {p q : Process} (hbegun : q.begun = p.begun) (hinserts : q.inserts = false)
    (hrows : q.rows = p.rows) (hdeliveries : store'.deliveries = store.deliveries) :
    Handles cfg t p store store' (.await q) where
  begun := hbegun
  inserts := by
    intro h
    rw [hinserts] at h
    cases h
  taken := by
    intro id hid
    rw [hrows] at hid
    exact Or.inl hid
  kept := by
    intro row hrow _
    rw [hdeliveries]
    exact hrow
  due := by
    intro row hrow _
    rw [hdeliveries] at hrow
    refine Or.inl ⟨hrow, fun hid => ⟨q, rfl, ?_⟩⟩
    rw [hrows]
    exact hid

/-- A tick saves the row it is at and goes on. -/
theorem handles_saved {p : Process} {result : WebhookRetryRunResult}
    (hrows : p.rows = delivery.id :: tick.rest.map WebhookDelivery.id) (hbegun : p.begun = tick.now)
    (hlater : isDue t delivery = true → tick.now < t)
    (h : nextDue { tick with result } (store.saveDelivery delivery) = (store', flow)) :
    Handles cfg t p store store' flow := by
  rcases resumed_nextDue h with ⟨hdeliveries, hresumed⟩
  have hmem : delivery.id ∈ p.rows := by
    rw [hrows]
    exact List.mem_cons_self
  refine ⟨?_, hresumed.inserts.imp ?_, hresumed.rows.imp ?_, ?_, ?_⟩
  · rw [hbegun]
    exact hresumed.begun
  · intro q hq hinserts
    rw [hq] at hinserts
    cases hinserts
  · intro q hq id hid
    rw [hq] at hid
    rw [hrows]
    exact Or.inl (List.mem_cons_of_mem _ hid)
  · rw [hdeliveries]
    exact kept_saveDelivery hmem
  · rw [hdeliveries]
    refine due_saveDelivery hmem (hbegun ▸ hlater) ?_
    intro row _ _ hne hid
    rw [hrows] at hid
    exact hresumed.hands row.id ((List.mem_cons.1 hid).resolve_left hne)

end Ticks

theorem handles_of_resumes {cfg : Config} {t : Time} (hbase : 0 < cfg.baseDelayMs)
    (hdelay : 0 < cfg.maxDelayMs) {store store' : Store} {p : Process} {input : Input}
    {flow : Flow Process Answer} (hs : StoreSound cfg store) (hp : Sound cfg store p)
    (hdone : input.reply.isDone = true) (h : Resumes cfg store p input store' flow) :
    Handles cfg t p store store' flow := by
  cases h with
  | foundActive => exact handles_foundActive
  | inserted htask hnew hsent => exact handles_inserted hs hp htask hnew hsent
  | task htask h => exact handles_task hs hp htask h
  | taskReturned htask h => exact handles_taskReturned hbase hdelay hs hp htask h
  | taskThrown htask h => exact absurd h (not_thrown_of_isDone hdone)
  | foundDue h => exact handles_foundDue h
  | resent hsubscription hactive hsent =>
      rcases sent_spec hsent with ⟨post, rfl, rfl, _⟩
      exact handles_same rfl rfl rfl rfl
  | abandoned => exact handles_same rfl rfl rfl rfl
  | gaveUp h =>
      rcases hp with ⟨row, rfl, _⟩
      refine handles_saved rfl rfl ?_ h
      intro hdue
      exact absurd (isDue_iff.1 hdue).1 nofun
  | redelivers h =>
      rcases hp with ⟨row, _, _, hflight, _⟩
      have hcont := continues_of_delivers h hflight
      refine handles_same rfl rfl ?_ hcont.deliveries
      rw [Process.rows, Process.rows, hcont.same.id]
  | redelivered h hnext =>
      rcases returned_of_delivers h with ⟨rfl, rfl, hstage⟩
      rcases hp with ⟨row, _, _, hflight, _⟩
      exact handles_saved rfl rfl (fun hdue => (hflight.outcome hstage).later hbase hdelay hdue) hnext
  | notRedelivered h => exact absurd h (not_thrown_of_isDone hdone)
  -- the other branches are those of a failed storage operation
  | _ => cases hdone

/-! ## The backlog of a delivery -/

/-- No call has the row in hand. -/
def Free (c : Calls Store Process Answer) (id : DeliveryId) : Prop :=
  ∀ k p, c.process k = some p → id ∉ p.rows

/-- Due by `t`, or in the hands of a call made before `t`, which may yet put it back to such a time. -/
def Pending (t : Time) (c : Calls Store Process Answer) (id : DeliveryId) : Prop :=
  (∃ row ∈ c.store.deliveries, row.id = id ∧ isDue t row = true ∧ Free c id) ∨
    ∃ k p, c.process k = some p ∧ id ∈ p.rows ∧ p.begun < t

/-- The row waits for its next attempt, due at `t`. -/
structure WaitsSince (t : Time) (row : WebhookDelivery) (c : Calls Store Process Answer) : Prop where
  stored : row ∈ c.store.deliveries
  status : row.status = .failed
  nextAttemptAt : row.nextAttemptAt = some t
  free : Free c row.id

/-- Time has come to `t`, and the rows of all earlier events are inserted. -/
structure Elapsed (t : Time) (c : Calls Store Process Answer) : Prop where
  clock : t ≤ c.store.clock
  inserted : ∀ k p, c.process k = some p → p.inserts = true → t ≤ p.begun

/-- A tick reads the queue that was begun at `t` or later. -/
def scansSince (t : Time) (m : Move Request Input Event) (c : Calls Store Process Answer) : Bool :=
  match m with
  | .resume k _ =>
      match c.process k with
      | some (.findDueDeliveries now) => t ≤ now
      | _ => false
  | _ => false

/-- The row is among those that a tick takes. -/
def takesUp (cfg : Config) (id : DeliveryId) (m : Move Request Input Event)
    (c : Calls Store Process Answer) : Bool :=
  match m with
  | .resume k _ =>
      match c.process k with
      | some (.findDueDeliveries now) =>
          (findDueDeliveries c.store now cfg.batchSize).any fun row => row.id = id
      | _ => false
  | _ => false

/-- No tick takes the row. -/
def PassesOver (cfg : Config) (id : DeliveryId) (m : Move Request Input Event)
    (c : Calls Store Process Answer) : Prop :=
  takesUp cfg id m c = false

instance (cfg : Config) (id : DeliveryId) (m : Move Request Input Event)
    (c : Calls Store Process Answer) : Decidable (PassesOver cfg id m c) :=
  inferInstanceAs (Decidable (_ = _))

section Steps

variable {cfg : Config} {t : Time} {c c' : Calls Store Process Answer} {m : Move Request Input Event}
  {id : CallId} {d : DeliveryId} {p : Process} {input : Input} {store' : Store}
  {flow : Flow Process Answer} {row : WebhookDelivery}

/-- A tick that has not read the queue yet is the only one, and `emit` has no failed rows. -/
theorem free_of_due {now : Time} (hc : Orderly cfg c) (hp : c.process id = some (.findDueDeliveries now))
    (hrow : row ∈ c.store.deliveries) (hfailed : row.status = .failed) : Free c row.id := by
  intro k q hq hid
  by_cases hk : k = id
  · subst hk
    rw [hp] at hq
    cases hq
    cases hid
  · have hemit := (hc.apart k id q _ hk hq hp).notTick rfl
    rcases (hc.process k q hq).pending hemit hid with ⟨pending, hpending, hEq, hstatus⟩
    rw [hc.store.keyed.eq_of_key hpending hrow hEq, hfailed] at hstatus
    cases hstatus

/-- A call that begins has nothing in hand, and has changed no row. -/
theorem start_spec (request : Request) (store : Store) :
    (start request store).1.deliveries = store.deliveries ∧
      (start request store).1.clock = store.clock ∧
      (start request store).2.Awaits fun q => q.rows = [] ∧ q.begun = store.clock := by
  cases request with
  | emit event data => exact ⟨rfl, rfl, rfl, rfl⟩
  | processDue =>
      simp only [start]
      split
      · exact ⟨rfl, rfl, trivial⟩
      · exact ⟨rfl, rfl, rfl, rfl⟩

theorem Elapsed.go (h : Elapsed t c) (hclock : c.store.clock ≤ store'.clock)
    (hinserts : flow.Awaits fun q => q.inserts = true → t ≤ q.begun) :
    Elapsed t (c.go id store' flow) where
  clock := by
    rw [Calls.store_go]
    exact h.clock.trans hclock
  inserted := by
    intro k q hq
    rcases Calls.of_process_go hq with ⟨rfl, rfl⟩ | ⟨_, hold⟩
    · exact hinserts
    · exact h.inserted k q hold

theorem Elapsed.handles (h : Elapsed t c) (hp : c.process id = some p)
    (hclock : c.store.clock ≤ store'.clock) (hhandles : Handles cfg t p c.store store' flow) :
    Elapsed t (c.go id store' flow) := by
  refine h.go hclock ?_
  cases flow with
  | answer a => trivial
  | await q =>
      intro hinserts
      have hbegun : q.begun = p.begun := hhandles.begun
      rw [hbegun]
      exact h.inserted id p hp (hhandles.inserts hinserts)

/-- A call that begins with nothing in hand frees no row and takes none. -/
theorem free_call (hnew : c.process id = none) (hrows : flow.Awaits fun q => q.rows = []) :
    Free (c.go id store' flow) d ↔ Free c d := by
  constructor
  · intro hfree k q hq
    have hk : id ≠ k := by
      rintro rfl
      rw [hnew] at hq
      cases hq
    exact hfree k q (by rw [Calls.process_go_of_ne hk]; exact hq)
  · intro hfree k q hq
    rcases Calls.of_process_go hq with ⟨rfl, rfl⟩ | ⟨_, hold⟩
    · have hnone : q.rows = [] := hrows
      rw [hnone]
      exact List.not_mem_nil
    · exact hfree k q hold

theorem pending_call (hnew : c.process id = none) (hrows : flow.Awaits fun q => q.rows = [])
    (hdeliveries : store'.deliveries = c.store.deliveries) (h : Pending t (c.go id store' flow) d) :
    Pending t c d := by
  rcases h with ⟨row, hrow, hid, hdue, hfree⟩ | ⟨k, q, hq, hmem, hearly⟩
  · rw [Calls.store_go, hdeliveries] at hrow
    exact Or.inl ⟨row, hrow, hid, hdue, (free_call hnew hrows).1 hfree⟩
  · rcases Calls.of_process_go hq with ⟨rfl, rfl⟩ | ⟨_, hold⟩
    · have hnone : q.rows = [] := hrows
      rw [hnone] at hmem
      cases hmem
    · exact Or.inr ⟨k, q, hold, hmem, hearly⟩

/-- A step makes nothing pending. -/
theorem pending_handles (hc : Orderly cfg c) (helapsed : Elapsed t c) (hp : c.process id = some p)
    (hhandles : Handles cfg t p c.store store' flow) (h : Pending t (c.go id store' flow) d) :
    Pending t c d := by
  rcases h with ⟨row, hrow, rfl, hdue, hfree⟩ | ⟨k, q, hq, hmem, hearly⟩
  · rw [Calls.store_go] at hrow
    rcases hhandles.due row hrow hdue with ⟨hold, hhands⟩ | ⟨hmine, hearly⟩
    · refine Or.inl ⟨row, hold, rfl, hdue, ?_⟩
      intro k q hq hid
      by_cases hk : id = k
      · subst hk
        rw [hp] at hq
        cases hq
        rcases hhands hid with ⟨q', rfl, hid'⟩
        exact hfree id q' (Calls.process_go_self.2 rfl) hid'
      · exact hfree k q (by rw [Calls.process_go_of_ne hk]; exact hq) hid
    · exact Or.inr ⟨id, p, hp, hmine, hearly⟩
  · rcases Calls.of_process_go hq with ⟨rfl, rfl⟩ | ⟨_, hold⟩
    · have hbegun : q.begun = p.begun := hhandles.begun
      rw [hbegun] at hearly
      rcases hhandles.taken d hmem with hmine | ⟨hinserts, _⟩ | ⟨now, rfl, hfound⟩
      · exact Or.inr ⟨k, p, hp, hmine, hearly⟩
      · -- only later events have rows to insert
        exact absurd hearly (Nat.not_lt.2 (helapsed.inserted k p hp hinserts))
      · rcases List.mem_map.1 hfound with ⟨row, hrow, rfl⟩
        rcases mem_findDueDeliveries hrow with ⟨hstored, hdue⟩
        refine Or.inl ⟨row, hstored, rfl, isDue_mono hdue (Nat.le_of_lt hearly), ?_⟩
        exact free_of_due hc hp hstored (isDue_iff.1 hdue).1
    · exact Or.inr ⟨k, q, hold, hmem, hearly⟩

theorem waits_call (hnew : c.process id = none) (hrows : flow.Awaits fun q => q.rows = [])
    (hdeliveries : store'.deliveries = c.store.deliveries) (h : WaitsSince t row c) :
    WaitsSince t row (c.go id store' flow) := by
  refine ⟨?_, h.status, h.nextAttemptAt, (free_call hnew hrows).2 h.free⟩
  rw [Calls.store_go, hdeliveries]
  exact h.stored

/-- Only a tick takes up a row that waits. -/
theorem waits_handles (hp : c.process id = some p)
    (hover : takesUp cfg row.id (.resume id input) c = false)
    (hhandles : Handles cfg t p c.store store' flow) (h : WaitsSince t row c) :
    WaitsSince t row (c.go id store' flow) := by
  refine ⟨?_, h.status, h.nextAttemptAt, ?_⟩
  · rw [Calls.store_go]
    exact hhandles.kept row h.stored (h.free id p hp)
  · intro k q hq hid
    rcases Calls.of_process_go hq with ⟨rfl, rfl⟩ | ⟨_, hold⟩
    · rcases hhandles.taken row.id hid with hmine | ⟨_, hfresh⟩ | ⟨now, rfl, hfound⟩
      · exact h.free k p hp hmine
      · exact Table.lookup_eq_none.1 hfresh row h.stored rfl
      · rcases List.mem_map.1 hfound with ⟨due, hdue, hEq⟩
        simp only [takesUp, hp, List.any_eq_false, decide_eq_true_eq] at hover
        exact hover due hdue hEq
    · exact h.free k q hold hid

/-- A tick that passes a waiting row over takes a batch out of what is pending before it. -/
theorem scan_takes {now : Time} (hc : Orderly cfg c)
    (hp : c.process id = some (.findDueDeliveries now)) (hnow : t ≤ now)
    (hover : takesUp cfg row.id (.resume id input) c = false) (hwaits : WaitsSince t row c)
    (hnext : nextDue ⟨now, findDueDeliveries c.store now cfg.batchSize, ⟨true, 0, 0, 0⟩⟩ c.store =
      (store', flow)) :
    ∃ taken : List DeliveryId, taken.Nodup ∧ taken.length = cfg.batchSize ∧
      ∀ k ∈ taken, Pending t c k ∧ ¬ Pending t (c.go id store' flow) k := by
  have hnot : row ∉ findDueDeliveries c.store now cfg.batchSize := by
    intro hdue
    simp only [takesUp, hp, List.any_eq_false, decide_eq_true_eq] at hover
    exact hover row hdue rfl
  have hbatch : (findDueDeliveries c.store now cfg.batchSize).length = cfg.batchSize ∧
      ∀ other ∈ findDueDeliveries c.store now cfg.batchSize, isDue t other = true := by
    rw [findDueDeliveries_eq] at hnot ⊢
    exact DueQueue.first_of_not_mem hwaits.stored (decide_eq_true hwaits.status) hwaits.nextAttemptAt
      hnow hnot
  refine ⟨(findDueDeliveries c.store now cfg.batchSize).map WebhookDelivery.id,
    nodup_findDueDeliveries hc.store.keyed now _, by rw [List.length_map, hbatch.1], ?_⟩
  intro k hk
  rcases List.mem_map.1 hk with ⟨due, hdue, rfl⟩
  have hstored := (mem_findDueDeliveries hdue).1
  have hfree := free_of_due hc hp hstored (isDue_iff.1 (hbatch.2 due hdue)).1
  refine ⟨Or.inl ⟨due, hstored, rfl, hbatch.2 due hdue, hfree⟩, ?_⟩
  -- now the tick has it in hand, and the tick has begun at `t` or later
  rcases resumed_nextDue hnext with ⟨_, hresumed⟩
  rcases hresumed.hands due.id hk with ⟨q, rfl, hmem⟩
  have hself : (c.go id store' (.await q)).process id = some q := Calls.process_go_self.2 rfl
  rintro (⟨_, _, _, _, hfree'⟩ | ⟨j, q', hq', hmem', hearly⟩)
  · exact hfree' id q hself hmem
  · rcases Calls.of_process_go hq' with ⟨rfl, hflow⟩ | ⟨_, hold⟩
    · cases hflow
      have hbegun : q.begun = now := hresumed.begun
      rw [hbegun] at hearly
      exact absurd hearly (Nat.not_lt.2 hnow)
    · exact hfree j q' hold hmem'

end Steps

/-! ## Runs -/

/-- In front of a row due at `t` there can be no more than this: rows that are due by then, and rows
that somebody has in hand. -/
def backlog (t : Time) (c : Calls Store Process Answer) : List WebhookDelivery :=
  c.store.deliveries.filter fun row =>
    isDue t row || c.processes.any fun entry => entry.2.rows.contains row.id

theorem mem_backlog {cfg : Config} {t : Time} {c : Calls Store Process Answer} {id : DeliveryId}
    (hc : Orderly cfg c) (h : Pending t c id) : id ∈ (backlog t c).map WebhookDelivery.id := by
  rcases h with ⟨row, hrow, rfl, hdue, _⟩ | ⟨k, p, hp, hid, _⟩
  · refine List.mem_map.2 ⟨row, List.mem_filter.2 ⟨hrow, ?_⟩, rfl⟩
    rw [hdue, Bool.true_or]
  · rcases (hc.process k p hp).stored hid with ⟨row, hrow, rfl⟩
    have hheld : (c.processes.any fun entry => entry.2.rows.contains row.id) = true :=
      List.any_eq_true.2 ⟨_, Calls.mem_of_process hp, List.contains_iff_mem.2 hid⟩
    refine List.mem_map.2 ⟨row, List.mem_filter.2 ⟨hrow, ?_⟩, rfl⟩
    rw [hheld, Bool.or_true]

/-- What a run keeps while ticks pass the row over. -/
structure Waiting (cfg : Config) (t : Time) (row : WebhookDelivery) (c : Calls Store Process Answer) :
    Prop where
  orderly : Orderly cfg c
  elapsed : Elapsed t c
  waits : WaitsSince t row c

section Runs

variable {cfg : Config} {t : Time} {row : WebhookDelivery} {c c' : Calls Store Process Answer}
  {m : Move Request Input Event}

theorem waiting_resume {id : CallId} {p : Process} {input : Input} {store' : Store}
    {flow : Flow Process Answer} (hbase : 0 < cfg.baseDelayMs) (hdelay : 0 < cfg.maxDelayMs)
    (h : Waiting cfg t row c) (hp : c.process id = some p)
    (hover : takesUp cfg row.id (.resume id input) c = false) (hdone : input.reply.isDone = true)
    (hresumes : Resumes cfg c.store p input store' flow) :
    Elapsed t (c.go id store' flow) ∧ WaitsSince t row (c.go id store' flow) ∧
      Shrinks (Pending t c) (Pending t (c.go id store' flow)) (scansSince t (.resume id input) c)
        cfg.batchSize := by
  have hsound := h.orderly.process id p hp
  have hhandles : Handles cfg t p c.store store' flow :=
    handles_of_resumes hbase hdelay h.orderly.store hsound hdone hresumes
  rcases touches_of_resumes h.orderly.store hsound hresumes with ⟨_, htouch, _⟩
  refine ⟨h.elapsed.handles hp htouch.clock hhandles, waits_handles hp hover hhandles h.waits, ?_, ?_⟩
  · exact fun _ hpending => pending_handles h.orderly h.elapsed hp hhandles hpending
  · intro hscan
    simp only [scansSince, hp] at hscan
    split at hscan
    · rename_i hprocess
      cases hprocess
      cases hresumes with
      | foundDue hnext => exact scan_takes h.orderly hp (of_decide_eq_true hscan) hover h.waits hnext
      | notFoundDue => cases hdone
    · cases hscan

theorem step_waiting (hmax : 1 ≤ cfg.maxAttempts) (hbase : 0 < cfg.baseDelayMs)
    (hdelay : 0 < cfg.maxDelayMs) (h : Waiting cfg t row c)
    (hstep : guarded (PassesOver cfg row.id) (reliable cfg).step m c = some c') :
    Waiting cfg t row c' ∧ Shrinks (Pending t c) (Pending t c') (scansSince t m c) cfg.batchSize := by
  rcases guarded_eq_some.1 hstep with ⟨hover, hstep⟩
  have horderly : Orderly cfg c' := (deliveries_outline hmax).step m c c' h.orderly hstep
  cases Service.steps_of_step hstep with
  | call id request hnew _ =>
      rcases start_spec request c.store with ⟨hdeliveries, hclock, hstarts⟩
      have hrows : ((reliable cfg).start request c.store).2.Awaits fun q => q.rows = [] :=
        hstarts.imp fun _ hq => hq.1
      refine ⟨⟨horderly, h.elapsed.go (Nat.le_of_eq hclock.symm) ?_,
        waits_call hnew hrows hdeliveries h.waits⟩, ?_, nofun⟩
      · exact hstarts.imp fun _ hq _ => hq.2 ▸ h.elapsed.clock
      · exact fun _ hpending => pending_call hnew hrows hdeliveries hpending
  | resume id p input store flow hp hresume =>
      rcases Service.restrict_resume.1 hresume with ⟨hdone, hresume⟩
      rcases waiting_resume hbase hdelay h hp hover hdone (resumes_of_resume hresume) with
        ⟨helapsed, hwaits, hshrinks⟩
      exact ⟨⟨horderly, helapsed, hwaits⟩, hshrinks⟩
  | external e store hexternal =>
      rcases external_store hexternal with ⟨hdeliveries, _, _, hclock⟩
      refine ⟨⟨horderly, ⟨h.elapsed.clock.trans hclock, h.elapsed.inserted⟩, ?_⟩, ?_, nofun⟩
      · exact ⟨by rw [hdeliveries]; exact h.waits.stored, h.waits.status, h.waits.nextAttemptAt,
          h.waits.free⟩
      · rintro k (⟨other, hother, hrest⟩ | hheld)
        · rw [hdeliveries] at hother
          exact Or.inl ⟨other, hother, hrest⟩
        · exact Or.inr hheld

/-- No delivery is overlooked for ever.  Take any reachable state, with whatever is under way, in which a
delivery waits for an attempt due at `t` and the rows of the events before `t` are inserted.  As long as
ticks pass it over it stays as it is; but the ticks that read the queue and pass it over are fewer than
the batches that fit into what was due by `t` or in somebody's hands at the beginning, however many
events are emitted and whatever the subscribers answer meanwhile. -/
theorem deliveries_passed_over_bound (hmax : 1 ≤ cfg.maxAttempts) (hbase : 0 < cfg.baseDelayMs)
    (hdelay : 0 < cfg.maxDelayMs) {subscriptions : List WebhookSubscription}
    {moves : List (Move Request Input Event)}
    (hrun : run (reliable cfg).step moves (.start (.boot subscriptions)) = some c)
    (hrow : row ∈ c.store.deliveries) (hnext : row.nextAttemptAt = some t) (hclock : t ≤ c.store.clock)
    (hfree : ∀ entry ∈ c.processes, row.id ∉ entry.2.rows)
    (hinserted : ∀ entry ∈ c.processes, entry.2.inserts = true → t ≤ entry.2.begun)
    {later : List (Move Request Input Event)}
    (hlater : run (guarded (PassesOver cfg row.id) (reliable cfg).step) later c = some c') :
    occurrences (guarded (PassesOver cfg row.id) (reliable cfg).step) (scansSince t) later c *
        cfg.batchSize < (backlog t c).length ∧
      row ∈ c'.store.deliveries := by
  have hc : Orderly cfg c := (deliveries_outline hmax).run (orderly_boot cfg subscriptions) hrun
  have hfailed : row.status = .failed :=
    (hc.store.rows row hrow).nextAttemptAt.1 (by rw [hnext]; exact Option.some_ne_none t)
  have hwaiting : Waiting cfg t row c := by
    refine ⟨hc, ⟨hclock, ?_⟩, hrow, hfailed, hnext, ?_⟩
    · exact fun k p hp => hinserted _ (Calls.mem_of_process hp)
    · exact fun k p hp => hfree _ (Calls.mem_of_process hp)
  have hkeys : ((backlog t c).map WebhookDelivery.id).Nodup :=
    hc.store.keyed.sublist (List.filter_sublist.map _)
  rcases run_backlog (fun _ _ _ h hstep => step_waiting hmax hbase hdelay h hstep) hwaiting hkeys
    (fun _ hpending => mem_backlog hc hpending) hlater with ⟨hend, rest, _, hcover, hle⟩
  refine ⟨?_, hend.waits.stored⟩
  -- the delivery itself is still pending
  have hdue : isDue t row = true := isDue_iff.2 ⟨hfailed, t, hnext, Nat.le_refl t⟩
  have hmine : row.id ∈ rest :=
    hcover row.id (Or.inl ⟨row, hend.waits.stored, rfl, hdue, hend.waits.free⟩)
  calc occurrences (guarded (PassesOver cfg row.id) (reliable cfg).step) (scansSince t) later c *
        cfg.batchSize
      < occurrences (guarded (PassesOver cfg row.id) (reliable cfg).step) (scansSince t) later c *
          cfg.batchSize + rest.length := Nat.lt_add_of_pos_right (List.length_pos_of_mem hmine)
    _ ≤ ((backlog t c).map WebhookDelivery.id).length := hle
    _ = (backlog t c).length := List.length_map _

end Runs

/-- One delivery at a time. -/
def oneAtATime : Config := { sampleConfig with batchSize := 1 }

/-- Two events whose first requests have failed, due again at 1000 and at 1100. -/
def twoWaiting : List (Move Request Input Event) :=
  sampleEmit ++ [.external (.elapse 100), .call 1 (.emit .settlementSettled "settlementId"),
    .resume 1 ⟨none, .done⟩, .resume 1 ⟨some 1, .inserted 8⟩, .resume 1 ⟨some 1, .answered 500⟩,
    .resume 1 ⟨some 1, .done⟩, .external (.elapse 2000)]

/-- A tick takes the first of them. -/
def oneTick : List (Move Request Input Event) := [.call 2 .processDue, .resume 2 ⟨none, .done⟩]

theorem deliveries_passed_over_bound_oneTick :
    ∃ c row c', run (reliable oneAtATime).step twoWaiting (.start (.boot [sampleSubscription])) = some c ∧
      row ∈ c.store.deliveries ∧ row.nextAttemptAt = some 1100 ∧
      run (guarded (PassesOver oneAtATime row.id) (reliable oneAtATime).step) oneTick c = some c' ∧
      1 < (backlog 1100 c).length ∧ row ∈ c'.store.deliveries := by
  have hreached : ((run (reliable oneAtATime).step twoWaiting
      (.start (.boot [sampleSubscription]))).any fun c =>
        c.processes = [] ∧ 1100 ≤ c.store.clock ∧ c.store.deliveries.any fun row =>
          row.nextAttemptAt = some 1100 ∧
            (run (guarded (PassesOver oneAtATime row.id) (reliable oneAtATime).step) oneTick c).isSome ∧
            occurrences (guarded (PassesOver oneAtATime row.id) (reliable oneAtATime).step)
              (scansSince 1100) oneTick c = 1) = true := by
    decide +kernel
  rcases (Option.any_eq_true _ _).1 hreached with ⟨c, hc, hstate⟩
  rcases of_decide_eq_true hstate with ⟨hidle, hclock, hany⟩
  rcases List.any_eq_true.1 hany with ⟨row, hrow, hfacts⟩
  rcases of_decide_eq_true hfacts with ⟨hnext, hsome, hone⟩
  rcases Option.isSome_iff_exists.1 hsome with ⟨c', hc'⟩
  have hnobody : ∀ entry ∈ c.processes, False := by
    rw [hidle]
    exact fun _ hentry => List.not_mem_nil hentry
  have hbound := deliveries_passed_over_bound (by decide) (by decide) (by decide) hc hrow hnext hclock
    (fun entry hentry => (hnobody entry hentry).elim) (fun entry hentry => (hnobody entry hentry).elim) hc'
  refine ⟨c, row, c', hc, hrow, hnext, hc', ?_, hbound.2⟩
  have hlt := hbound.1
  rw [hone] at hlt
  exact hlt

end Webhooks
end PaymentRail
