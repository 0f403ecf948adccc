import PaymentRail.Webhooks.DeliveryAttempts

/-!
# DeliveriesKept — deliveries that survive a failure

The process may stop between any two steps, and any storage operation may fail.  A delivery is kept
if it is over or waits for its next attempt.  `emit` inserts its row as pending and writes the first
outcome after the request; where the process stops in between, or that save fails, the row stays
pending, and the retry service only looks for failed rows (`first_outcome_lost`).  From then on
nobody changes it (`Orphan.run`), and this is the only way to lose a delivery: a later attempt that is
cut short leaves the failed row as it was, and a later tick finds it again
(`deliveries_kept_iff_no_outcome_lost`).

The argument only needs to know who holds which rows.  `Footprint` says what a step makes of that.
-/

namespace PaymentRail
namespace Webhooks

open Machine Collections

variable {cfg : Config}

/-! ## An instance that may stop -/

inductive Action where
  | move (m : Move Request Input Event)
  /-- The process stops; another one is started on the same database. -/
  | stop
  deriving DecidableEq, Repr

def instanceStep (cfg : Config) :
    Action → Calls Store Process Answer → Option (Calls Store Process Answer)
  | .move m, c => (service cfg).step m c
  | .stop, c => some { c with store := { c.store with running := false }, processes := [] }

/-- The delivery is over, or its next attempt has a time. -/
def WebhookDelivery.isKept (row : WebhookDelivery) : Bool :=
  match row.status with
  | .pending => false
  | .delivered => true
  | .failed => row.nextAttemptAt.isSome
  | .exhausted => true

/-- The tasks of `emit`. -/
def Process.tasks : Process → List (SubscriptionId × Task)
  | .fanOut _ _ _ tasks => tasks
  | _ => []

/-- The task has inserted its row. -/
def Task.isSending : Task → Bool
  | .insert _ => false
  | .deliver _ => true

/-- A save of `deliver` fails, and the row it was for has no outcome yet. -/
def losesReply (p : Process) : Input → Bool
  | ⟨some key, .failed _⟩ => p.tasks.any fun entry => entry.1 = key && entry.2.isSending
  | _ => false

/-- A row was inserted, and now its first outcome will not be stored. -/
def losesOutcome : Action → Calls Store Process Answer → Bool
  | .stop, c => c.processes.any fun call => call.2.tasks.any fun entry => entry.2.isSending
  | .move (.resume id input), c => (c.process id).any fun p => losesReply p input
  | .move _, _ => false

/-- The instance as long as no first outcome is lost. -/
def attentive (cfg : Config) :
    Action → Calls Store Process Answer → Option (Calls Store Process Answer) :=
  guarded (fun a c => losesOutcome a c = false) (instanceStep cfg)

/-! ## Who holds which rows -/

/-- One of the tasks sends the row `id` for the first time. -/
def Sends (tasks : List (SubscriptionId × Task)) (id : DeliveryId) : Prop :=
  ∃ key a, (key, Task.deliver a) ∈ tasks ∧ a.delivery.id = id

/-- A task that has inserted its row has its key to itself. -/
def Alone (tasks : List (SubscriptionId × Task)) : Prop :=
  ∀ key a task, (key, Task.deliver a) ∈ tasks → (key, task) ∈ tasks → task = .deliver a

/-- The rows a tick has taken up. -/
def Process.retrying (p : Process) : List DeliveryId := if p.isTick = true then p.rows else []

/-- The tasks a call goes on with. -/
def awaited : Flow Process Answer → List (SubscriptionId × Task)
  | .await p => p.tasks
  | .answer _ => []

section Tasks

variable {tasks : List (SubscriptionId × Task)} {key : SubscriptionId} {a a' : Attempt}
  {subscription : WebhookSubscription} {id : DeliveryId}

@[simp] theorem awaited_fanOut {event : WebhookEvent} {data : Payload} {now : Time} :
    awaited (fanOut event data now tasks) = tasks := by
  cases tasks with
  | nil => rfl
  | cons entry rest => rfl

theorem not_sends_nil : ¬ Sends [] id := by
  rintro ⟨key, a, hmem, _⟩
  cases hmem

theorem sends_put : Sends (Table.put Prod.fst tasks (key, .deliver a)) id ↔
    id = a.delivery.id ∨ Sends (Table.drop Prod.fst tasks key) id := by
  constructor
  · rintro ⟨key', b, hb, hid⟩
    rcases List.mem_cons.1 hb with hEq | hmem
    · cases hEq
      exact Or.inl hid.symm
    · exact Or.inr ⟨key', b, hmem, hid⟩
  · rintro (rfl | ⟨key', b, hb, hid⟩)
    · exact ⟨key, a, List.mem_cons_self, rfl⟩
    · exact ⟨key', b, List.mem_cons_of_mem _ hb, hid⟩

/-- A task ends that has not inserted its row. -/
theorem sends_drop_insert (halone : Alone tasks) (htask : (key, Task.insert subscription) ∈ tasks) :
    Sends (Table.drop Prod.fst tasks key) id ↔ Sends tasks id := by
  constructor
  · rintro ⟨key', b, hb, hid⟩
    exact ⟨key', b, (Table.mem_drop.1 hb).1, hid⟩
  · rintro ⟨key', b, hb, hid⟩
    refine ⟨key', b, Table.mem_drop.2 ⟨hb, ?_⟩, hid⟩
    rintro rfl
    exact Task.noConfusion (halone _ b _ hb htask)

/-- A task ends that has. -/
theorem sends_drop_deliver (halone : Alone tasks) (hapart : Apart tasks)
    (htask : (key, Task.deliver a) ∈ tasks) :
    Sends (Table.drop Prod.fst tasks key) id ↔ Sends tasks id ∧ id ≠ a.delivery.id := by
  constructor
  · rintro ⟨key', b, hb, rfl⟩
    obtain ⟨hmem, hkey⟩ := Table.mem_drop.1 hb
    exact ⟨⟨key', b, hmem, rfl⟩, fun hEq => hkey (hapart key' key b a hmem htask hEq)⟩
  · rintro ⟨⟨key', b, hb, rfl⟩, hne⟩
    refine ⟨key', b, Table.mem_drop.2 ⟨hb, ?_⟩, rfl⟩
    rintro rfl
    have hEq : Task.deliver a = Task.deliver b := halone _ b _ hb htask
    cases hEq
    exact hne rfl

/-- A task goes on with the same row. -/
theorem sends_put_deliver (halone : Alone tasks) (hapart : Apart tasks)
    (htask : (key, Task.deliver a) ∈ tasks) (hsame : a'.delivery.id = a.delivery.id) :
    Sends (Table.put Prod.fst tasks (key, .deliver a')) id ↔ Sends tasks id := by
  rw [sends_put, sends_drop_deliver halone hapart htask, hsame]
  constructor
  · rintro (rfl | h)
    · exact ⟨key, a, htask, rfl⟩
    · exact h.1
  · intro h
    by_cases hid : id = a.delivery.id
    · exact Or.inl hid
    · exact Or.inr ⟨h, hid⟩

theorem Alone.put (h : Alone tasks) : Alone (Table.put Prod.fst tasks (key, .deliver a)) := by
  intro key' b task hb htask
  rcases mem_put_task hb with hEq | ⟨hmem, hkey⟩
  · cases hEq
    rcases mem_put_task htask with hEq' | ⟨_, hne⟩
    · cases hEq'
      rfl
    · exact absurd rfl hne
  · rcases mem_put_task htask with hEq' | ⟨hmem', _⟩
    · cases hEq'
      exact absurd rfl hkey
    · exact h key' b task hmem hmem'

theorem Alone.drop (h : Alone tasks) : Alone (Table.drop Prod.fst tasks key) := by
  intro key' b task hb htask
  exact h key' b task (Table.mem_drop.1 hb).1 (Table.mem_drop.1 htask).1

end Tasks

/-- After the request an attempt has an outcome in memory that is kept once it is saved. -/
def Attempt.Ready (a : Attempt) : Prop :=
  a.stage ≠ .post → a.delivery.isKept = true

/-- What a call has in memory. -/
def Process.Ready : Process → Prop
  | .fanOut _ _ _ tasks =>
      (∀ key a, (key, Task.deliver a) ∈ tasks → a.Ready) ∧ Alone tasks ∧ Apart tasks
  | .giveUp _ delivery => delivery.isKept = true
  | .redeliver _ a => a.Ready
  | _ => True

/-- What holds of a waiting call, whatever has failed before: the rows it sends for the first time
are pending, and those it sends again are not. -/
structure Tidy (store : Store) (p : Process) : Prop where
  ready : p.Ready
  sending : ∀ id, Sends p.tasks id → ∃ row ∈ store.deliveries, row.id = id ∧ row.status = .pending
  retrying : ∀ id ∈ p.retrying, ∃ row ∈ store.deliveries, row.id = id ∧ row.status ≠ .pending

/-- Two calls do not send the same row for the first time. -/
def Unshared (p q : Process) : Prop := ∀ id, Sends p.tasks id → ¬ Sends q.tasks id

/-! ## What a step makes of them -/

/-- A tick goes on with rows of its own, or with failed ones it has found. -/
def Retries (p : Process) (store : Store) (flow : Flow Process Answer) : Prop :=
  flow.Awaits fun q => ∀ id ∈ q.retrying, id ∈ p.retrying ∨
    ∃ row ∈ store.deliveries, row.id = id ∧ row.status ≠ .pending

/-- The rows a step writes and the rows it sends afterwards. -/
inductive Footprint (p : Process) (input : Input) (store store' : Store)
    (flow : Flow Process Answer) : Prop where
  | quiet (hrows : store'.deliveries = store.deliveries)
      (hsends : ∀ id, Sends (awaited flow) id ↔ Sends p.tasks id)
  /-- The outcome of a row is stored. -/
  | saved (entity : WebhookDelivery)
      (hrows : store'.deliveries = (store.saveDelivery entity).deliveries)
      (hkept : entity.isKept = true) (hown : Sends p.tasks entity.id ∨ entity.id ∈ p.retrying)
      (hsends : ∀ id, Sends (awaited flow) id ↔ Sends p.tasks id ∧ id ≠ entity.id)
  | inserted (entity : WebhookDelivery)
      (hrows : store'.deliveries = (store.saveDelivery entity).deliveries)
      (hnew : store.findDelivery entity.id = none) (hpending : entity.status = .pending)
      (hsends : ∀ id, Sends (awaited flow) id ↔ id = entity.id ∨ Sends p.tasks id)
  /-- The first outcome of the row `id` is not stored. -/
  | lost (id : DeliveryId) (hloses : losesReply p input = true)
      (hrows : store'.deliveries = store.deliveries) (hown : Sends p.tasks id)
      (hsends : ∀ other, Sends (awaited flow) other ↔ Sends p.tasks other ∧ other ≠ id)

/-- The call `p` has gone on with `flow`. -/
structure Carries (p : Process) (input : Input) (store store' : Store) (flow : Flow Process Answer) :
    Prop where
  ready : flow.Awaits Process.Ready
  retries : Retries p store flow
  footprint : Footprint p input store store' flow

section Steps

variable {store saved store' : Store} {p : Process} {input : Input} {flow : Flow Process Answer}
  {event : WebhookEvent} {data : Payload} {now : Time} {tasks : List (SubscriptionId × Task)}
  {key : SubscriptionId} {a a' : Attempt} {reply : Reply} {tick : Tick}

theorem isKept_of_outcome {delivery : WebhookDelivery} (h : Outcome cfg now delivery) :
    delivery.isKept = true := by
  cases hstatus : delivery.status with
  | pending => exact absurd hstatus h.notPending
  | delivered => simp [WebhookDelivery.isKept, hstatus]
  | failed =>
      have hnext : delivery.nextAttemptAt = some (now + cfg.backoffMs delivery.attempts) :=
        (h.failed hstatus).2
      simp [WebhookDelivery.isKept, hstatus, hnext]
  | exhausted => simp [WebhookDelivery.isKept, hstatus]

theorem not_pending_of_isKept {row : WebhookDelivery} (h : row.isKept = true) :
    row.status ≠ .pending := by
  intro hpending
  simp [WebhookDelivery.isKept, hpending] at h

/-- An attempt that goes on writes no row. -/
theorem ready_of_delivers (h : Delivers cfg now store a reply store' (.await a')) (ha : a.Ready) :
    a'.Ready ∧ a'.delivery.id = a.delivery.id ∧ store'.deliveries = store.deliveries := by
  cases h with
  | settled hstage hreply hsame houtcome hnext =>
      exact ⟨fun _ => isKept_of_outcome houtcome, hsame.id, rfl⟩
  | paused hstage =>
      refine ⟨fun _ => ha ?_, rfl, rfl⟩
      rw [hstage]
      nofun

/-! ### Ticks -/

/-- A call without tasks goes on without tasks, and writes no row. -/
theorem carries_quiet (htasks : p.tasks = []) (hawaited : awaited flow = [])
    (hrows : store'.deliveries = store.deliveries) (hready : flow.Awaits Process.Ready)
    (hretries : Retries p store flow) : Carries p input store store' flow := by
  refine ⟨hready, hretries, .quiet hrows ?_⟩
  intro id
  rw [htasks, hawaited]

theorem retries_nextDue (h : nextDue tick saved = (store', flow))
    (hrest : ∀ row ∈ tick.rest, row.id ∈ p.retrying ∨
      ∃ other ∈ store.deliveries, other.id = row.id ∧ other.status ≠ .pending) :
    flow.Awaits Process.Ready ∧ awaited flow = [] ∧ store'.deliveries = saved.deliveries ∧
      Retries p store flow := by
  rcases nextDue_cases h with ⟨_, rfl, rfl⟩ | ⟨delivery, rest, hEq, rfl, rfl⟩
  · exact ⟨trivial, rfl, rfl, trivial⟩
  · refine ⟨trivial, rfl, rfl, ?_⟩
    intro id hid
    have hmem : id ∈ (delivery :: rest).map WebhookDelivery.id := hid
    obtain ⟨row, hrow, rfl⟩ := List.mem_map.1 hmem
    exact hrest row (hEq ▸ hrow)

/-- A tick saves the row it is at, and goes on to the next one. -/
theorem carries_saved {entity : WebhookDelivery}
    (h : nextDue tick (store.saveDelivery entity) = (store', flow)) (htasks : p.tasks = [])
    (hretrying : p.retrying = entity.id :: tick.rest.map WebhookDelivery.id)
    (hkept : entity.isKept = true) : Carries p input store store' flow := by
  have hrest : ∀ row ∈ tick.rest, row.id ∈ p.retrying ∨
      ∃ other ∈ store.deliveries, other.id = row.id ∧ other.status ≠ .pending := by
    intro row hrow
    rw [hretrying]
    exact Or.inl (List.mem_cons_of_mem _ (List.mem_map.2 ⟨row, hrow, rfl⟩))
  obtain ⟨hready, hawaited, hrows, hretries⟩ := retries_nextDue h hrest
  refine ⟨hready, hretries, .saved entity hrows hkept (Or.inr ?_) ?_⟩
  · rw [hretrying]
    exact List.mem_cons_self
  · intro id
    rw [htasks, hawaited]
    exact ⟨fun hsends => absurd hsends not_sends_nil, fun hsends => absurd hsends.1 not_sends_nil⟩

/-! ### `emit` -/

theorem retries_fanOut : Retries p store (fanOut event data now tasks) :=
  fanOut_awaits fun _ hid => absurd hid List.not_mem_nil

theorem ready_put (hp : (Process.fanOut event data now tasks).Ready) (ha : a.Ready)
    (hothers : ∀ key' b, (key', Task.deliver b) ∈ tasks → key' ≠ key →
      b.delivery.id ≠ a.delivery.id) :
    (fanOut event data now (Table.put Prod.fst tasks (key, .deliver a))).Awaits Process.Ready := by
  refine fanOut_awaits ⟨?_, hp.2.1.put, hp.2.2.put hothers⟩
  intro key' b hb
  rcases mem_put_task hb with hEq | ⟨hmem, _⟩
  · cases hEq
    exact ha
  · exact hp.1 key' b hmem

theorem ready_drop (hp : (Process.fanOut event data now tasks).Ready) :
    (fanOut event data now (Table.drop Prod.fst tasks key)).Awaits Process.Ready :=
  fanOut_awaits ⟨fun key' b hb => hp.1 key' b (Table.mem_drop.1 hb).1, hp.2.1.drop, hp.2.2.drop⟩

theorem carries_inserted {subscription : WebhookSubscription} {id : DeliveryId}
    (hp : Tidy store (.fanOut event data now tasks))
    (htask : (key, Task.insert subscription) ∈ tasks) (hnew : store.findDelivery id = none)
    (hsent : Sent cfg now (newDelivery id subscription event data store.clock) subscription
      (store.saveDelivery (newDelivery id subscription event data store.clock)) store' a) :
    Carries (.fanOut event data now tasks) input store store'
      (fanOut event data now (Table.put Prod.fst tasks (key, .deliver a))) := by
  obtain ⟨post, rfl, rfl, _⟩ := sent_spec hsent
  refine ⟨ready_put hp.ready (fun hstage => absurd rfl hstage) ?_, retries_fanOut,
    .inserted _ rfl hnew rfl ?_⟩
  · intro key' b hb _ hEq
    obtain ⟨row, hrow, hid, _⟩ := hp.sending b.delivery.id ⟨key', b, hb, rfl⟩
    exact Table.lookup_eq_none.1 hnew row hrow (hid.trans hEq)
  · intro other
    rw [awaited_fanOut, sends_put, sends_drop_insert hp.ready.2.1 htask]
    exact Iff.rfl

theorem carries_notInserted {subscription : WebhookSubscription}
    (hp : Tidy store (.fanOut event data now tasks))
    (htask : (key, Task.insert subscription) ∈ tasks) :
    Carries (.fanOut event data now tasks) input store store
      (fanOut event data now (Table.drop Prod.fst tasks key)) := by
  refine ⟨ready_drop hp.ready, retries_fanOut, .quiet rfl ?_⟩
  intro id
  rw [awaited_fanOut, sends_drop_insert hp.ready.2.1 htask]
  exact Iff.rfl

theorem carries_task (hp : Tidy store (.fanOut event data now tasks))
    (htask : (key, Task.deliver a) ∈ tasks)
    (h : Delivers cfg now store a reply store' (.await a')) :
    Carries (.fanOut event data now tasks) input store store'
      (fanOut event data now (Table.put Prod.fst tasks (key, .deliver a'))) := by
  obtain ⟨hready, hid, hrows⟩ := ready_of_delivers h (hp.ready.1 key a htask)
  refine ⟨ready_put hp.ready hready ?_, retries_fanOut, .quiet hrows ?_⟩
  · intro key' b hb hkey hEq
    exact hkey (hp.ready.2.2 key' key b a hb htask (hEq.trans hid))
  · intro other
    rw [awaited_fanOut, sends_put_deliver hp.ready.2.1 hp.ready.2.2 htask hid]
    exact Iff.rfl

theorem carries_taskReturned {delivery : WebhookDelivery}
    (hp : Tidy store (.fanOut event data now tasks)) (htask : (key, Task.deliver a) ∈ tasks)
    (h : Delivers cfg now store a reply store' (.returned delivery)) :
    Carries (.fanOut event data now tasks) input store store'
      (fanOut event data now (Table.drop Prod.fst tasks key)) := by
  obtain ⟨rfl, rfl, hstage⟩ := returned_of_delivers h
  refine ⟨ready_drop hp.ready, retries_fanOut,
    .saved a.delivery rfl (hp.ready.1 key a htask hstage) (Or.inl ⟨key, a, htask, rfl⟩) ?_⟩
  intro other
  rw [awaited_fanOut, sends_drop_deliver hp.ready.2.1 hp.ready.2.2 htask]
  exact Iff.rfl

theorem carries_taskThrown {error : String} (hp : Tidy store (.fanOut event data now tasks))
    (htask : (key, Task.deliver a) ∈ tasks)
    (h : Delivers cfg now store a reply store' (.thrown error)) :
    Carries (.fanOut event data now tasks) ⟨some key, reply⟩ store store'
      (fanOut event data now (Table.drop Prod.fst tasks key)) := by
  cases h with
  | thrown hstage =>
      refine ⟨ready_drop hp.ready, retries_fanOut,
        .lost a.delivery.id ?_ rfl ⟨key, a, htask, rfl⟩ ?_⟩
      · refine List.any_eq_true.2 ⟨(key, .deliver a), htask, ?_⟩
        simp [Task.isSending]
      · intro other
        rw [awaited_fanOut, sends_drop_deliver hp.ready.2.1 hp.ready.2.2 htask]
        exact Iff.rfl

/-! ### All of them -/

theorem carries_of_resumes (hp : Tidy store p) (h : Resumes cfg store p input store' flow) :
    Carries p input store store' flow := by
  cases h with
  | @foundActive event data now task =>
      refine ⟨fanOut_awaits ⟨?_, ?_, ?_⟩, retries_fanOut, .quiet rfl ?_⟩
      · exact fun _ _ htask => absurd htask deliver_notMem_interested
      · exact fun _ _ _ htask => absurd htask deliver_notMem_interested
      · exact fun _ _ _ _ htask => absurd htask deliver_notMem_interested
      · intro id
        rw [awaited_fanOut]
        refine ⟨?_, fun hsends => absurd hsends not_sends_nil⟩
        rintro ⟨key, a, htask, _⟩
        exact absurd htask deliver_notMem_interested
  | notFoundActive => exact carries_quiet rfl rfl rfl trivial trivial
  | inserted htask hnew hsent => exact carries_inserted hp htask hnew hsent
  | notInserted htask => exact carries_notInserted hp htask
  | task htask h => exact carries_task hp htask h
  | taskReturned htask h => exact carries_taskReturned hp htask h
  | taskThrown htask h => exact carries_taskThrown hp htask h
  | @foundDue now task _ _ h =>
      have hdue : ∀ row ∈ findDueDeliveries store now cfg.batchSize,
          row.id ∈ (Process.findDueDeliveries now).retrying ∨
            ∃ other ∈ store.deliveries, other.id = row.id ∧ other.status ≠ .pending := by
        intro row hrow
        obtain ⟨hmem, hdue⟩ := mem_findDueDeliveries hrow
        simp only [isDue, Bool.and_eq_true, decide_eq_true_eq] at hdue
        refine Or.inr ⟨row, hmem, rfl, ?_⟩
        rw [hdue.1]
        intro hpending
        cases hpending
      obtain ⟨hready, hawaited, hrows, hretries⟩ := retries_nextDue h hdue
      exact carries_quiet rfl hawaited hrows hready hretries
  | notFoundDue => exact carries_quiet rfl rfl rfl trivial trivial
  | resent hsubscription hactive hsent =>
      obtain ⟨post, rfl, rfl, _⟩ := sent_spec hsent
      exact carries_quiet rfl rfl rfl (fun hstage => absurd rfl hstage) fun id hid => Or.inl hid
  | abandoned => exact carries_quiet rfl rfl rfl rfl fun id hid => Or.inl hid
  | notFoundSubscription => exact carries_quiet rfl rfl rfl trivial trivial
  | gaveUp h => exact carries_saved h rfl rfl hp.ready
  | notGivenUp => exact carries_quiet rfl rfl rfl trivial trivial
  | @redelivers tick a a' task reply _ h =>
      obtain ⟨hready, hid, hrows⟩ := ready_of_delivers h hp.ready
      refine carries_quiet rfl rfl hrows hready ?_
      intro id hmem
      have hrow : id ∈ a'.delivery.id :: tick.rest.map WebhookDelivery.id := hmem
      rw [hid] at hrow
      exact Or.inl hrow
  | redelivered h hnext =>
      obtain ⟨rfl, rfl, hstage⟩ := returned_of_delivers h
      exact carries_saved hnext rfl rfl (hp.ready hstage)
  | notRedelivered h =>
      cases h with
      | thrown hstage => exact carries_quiet rfl rfl rfl trivial trivial

end Steps

/-! ## The outline -/

section Outline

variable {store store' : Store} {p q : Process} {input : Input} {flow : Flow Process Answer}
  {row : WebhookDelivery} {id : DeliveryId}

theorem Footprint.keyed (h : Footprint p input store store' flow)
    (hkeyed : Table.Keyed WebhookDelivery.id store.deliveries) :
    Table.Keyed WebhookDelivery.id store'.deliveries := by
  cases h with
  | quiet hrows hsends => rw [hrows]; exact hkeyed
  | saved entity hrows hkept hown hsends => rw [hrows]; exact Table.Keyed.put hkeyed
  | inserted entity hrows hnew hpending hsends => rw [hrows]; exact Table.Keyed.put hkeyed
  | lost id hloses hrows hown hsends => rw [hrows]; exact hkeyed

/-- A pending row stays as it is unless the call that sends it has done with it. -/
theorem Footprint.pending (h : Footprint p input store store' flow)
    (hkeyed : Table.Keyed WebhookDelivery.id store.deliveries) (hp : Tidy store p)
    (hrow : row ∈ store.deliveries) (hpending : row.status = .pending)
    (hsends : Sends p.tasks row.id → Sends (awaited flow) row.id) : row ∈ store'.deliveries := by
  cases h with
  | quiet hrows _ => exact hrows ▸ hrow
  | lost id hloses hrows hown _ => exact hrows ▸ hrow
  | inserted entity hrows hnew _ _ =>
      rw [hrows]
      exact mem_saveDelivery.2 (Or.inr ⟨hrow, Table.lookup_eq_none.1 hnew row hrow⟩)
  | saved entity hrows hkept hown hafter =>
      rw [hrows]
      refine mem_saveDelivery.2 (Or.inr ⟨hrow, ?_⟩)
      intro hEq
      rcases hown with hown | hown
      · rw [hEq] at hsends
        exact ((hafter entity.id).1 (hsends hown)).2 rfl
      · -- a tick only has rows that are not pending
        obtain ⟨other, hother, hid, hne⟩ := hp.retrying entity.id hown
        rw [hkeyed.eq_of_key hother hrow (hid.trans hEq.symm)] at hne
        exact hne hpending

/-- No row becomes pending again. -/
theorem Footprint.not_pending (h : Footprint p input store store' flow)
    (hrow : ∃ row ∈ store.deliveries, row.id = id ∧ row.status ≠ .pending) :
    ∃ row ∈ store'.deliveries, row.id = id ∧ row.status ≠ .pending := by
  obtain ⟨row, hmem, rfl, hne⟩ := hrow
  cases h with
  | quiet hrows _ => exact ⟨row, hrows ▸ hmem, rfl, hne⟩
  | lost id hloses hrows hown _ => exact ⟨row, hrows ▸ hmem, rfl, hne⟩
  | inserted entity hrows hnew _ _ =>
      refine ⟨row, ?_, rfl, hne⟩
      rw [hrows]
      exact mem_saveDelivery.2 (Or.inr ⟨hmem, Table.lookup_eq_none.1 hnew row hmem⟩)
  | saved entity hrows hkept _ _ =>
      rw [hrows]
      by_cases hEq : row.id = entity.id
      · exact ⟨entity, mem_saveDelivery.2 (Or.inl rfl), hEq.symm, not_pending_of_isKept hkept⟩
      · exact ⟨row, mem_saveDelivery.2 (Or.inr ⟨hmem, hEq⟩), rfl, hne⟩

/-- What is sent for the first time was sent before, or was inserted just now. -/
theorem Footprint.sends (h : Footprint p input store store' flow) (hsends : Sends (awaited flow) id) :
    Sends p.tasks id ∨ (store.findDelivery id = none ∧
      ∃ row ∈ store'.deliveries, row.id = id ∧ row.status = .pending) := by
  cases h with
  | quiet _ hafter => exact Or.inl ((hafter id).1 hsends)
  | saved _ _ _ _ hafter => exact Or.inl ((hafter id).1 hsends).1
  | lost _ _ _ _ hafter => exact Or.inl ((hafter id).1 hsends).1
  | inserted entity hrows hnew hpending hafter =>
      rcases (hafter id).1 hsends with rfl | hbefore
      · refine Or.inr ⟨hnew, entity, ?_, rfl, hpending⟩
        rw [hrows]
        exact mem_saveDelivery.2 (Or.inl rfl)
      · exact Or.inl hbefore

/-- A call that does not send the rows the step is about. -/
theorem Tidy.others (hq : Tidy store q) (hkeyed : Table.Keyed WebhookDelivery.id store.deliveries)
    (hp : Tidy store p) (h : Footprint p input store store' flow) (hqp : Unshared q p) :
    Tidy store' q := by
  refine ⟨hq.ready, ?_, ?_⟩
  · intro id hsends
    obtain ⟨row, hrow, rfl, hpending⟩ := hq.sending id hsends
    have hstays := h.pending hkeyed hp hrow hpending fun hown => absurd hown (hqp row.id hsends)
    exact ⟨row, hstays, rfl, hpending⟩
  · exact fun id hid => h.not_pending (hq.retrying id hid)

theorem Tidy.self (hp : Tidy store p) (hkeyed : Table.Keyed WebhookDelivery.id store.deliveries)
    (h : Carries p input store store' (.await q)) : Tidy store' q := by
  refine ⟨h.ready, ?_, ?_⟩
  · intro id hsends
    rcases h.footprint.sends hsends with hbefore | ⟨_, hnew⟩
    · obtain ⟨row, hrow, rfl, hpending⟩ := hp.sending id hbefore
      exact ⟨row, h.footprint.pending hkeyed hp hrow hpending fun _ => hsends, rfl, hpending⟩
    · exact hnew
  · intro id hid
    refine h.footprint.not_pending ?_
    rcases h.retries id hid with hown | hfound
    · exact hp.retrying id hown
    · exact hfound

theorem unshared_of_footprint (hq : Tidy store q) (hqp : Unshared q p)
    (h : Footprint p input store store' flow) (hsends : Sends q.tasks id) :
    ¬ Sends (awaited flow) id := by
  intro hboth
  rcases h.sends hboth with hown | ⟨hnew, _⟩
  · exact hqp id hsends hown
  · obtain ⟨row, hrow, hid, _⟩ := hq.sending id hsends
    exact Table.lookup_eq_none.1 hnew row hrow hid

theorem Tidy.same (hq : Tidy store q) (hrows : store'.deliveries = store.deliveries) :
    Tidy store' q := by
  refine ⟨hq.ready, ?_, ?_⟩
  · rw [hrows]
    exact hq.sending
  · rw [hrows]
    exact hq.retrying

/-- A call that has just begun holds no row. -/
theorem start_holds_nothing (request : Request) (store : Store) :
    (start request store).2.Awaits fun p => p.Ready ∧ p.tasks = [] ∧ p.retrying = [] := by
  cases request with
  | emit event data => exact ⟨trivial, rfl, rfl⟩
  | processDue =>
      simp only [start]
      split
      · trivial
      · exact ⟨trivial, rfl, rfl⟩

theorem hands_outline (cfg : Config) :
    Outline (service cfg) (fun store => Table.Keyed WebhookDelivery.id store.deliveries)
      (fun store _ p => Tidy store p) Unshared where
  symm := fun p q h id hq hp => h id hp hq
  start := by
    intro id request store hkeyed
    obtain ⟨hrows, _⟩ := start_rows request store
    have hnothing := start_holds_nothing request store
    have hkeyed' : Table.Keyed WebhookDelivery.id (start request store).1.deliveries :=
      hrows.symm ▸ hkeyed
    refine ⟨hkeyed', ?_, ?_⟩
    · refine hnothing.imp ?_
      rintro p ⟨hready, htasks, hretrying⟩
      refine ⟨hready, ?_, ?_⟩
      · intro id hsends
        rw [htasks] at hsends
        exact absurd hsends not_sends_nil
      · intro id hid
        rw [hretrying] at hid
        cases hid
    · intro k q hq
      refine ⟨hq.same hrows, hnothing.imp ?_⟩
      rintro p ⟨_, htasks, _⟩ id _ hsends
      rw [htasks] at hsends
      exact not_sends_nil hsends
  resume := by
    intro id p input store store' flow hkeyed hp hresume
    have hcarries := carries_of_resumes hp (resumes_of_resume hresume)
    refine ⟨hcarries.footprint.keyed hkeyed, ?_, ?_⟩
    · cases flow with
      | await q => exact hp.self hkeyed hcarries
      | answer answer => trivial
    · intro k q _ hq hqp
      refine ⟨hq.others hkeyed hp hcarries.footprint hqp, ?_⟩
      cases flow with
      | await r => exact fun other hsends => unshared_of_footprint hq hqp hcarries.footprint hsends
      | answer answer => trivial
  external := by
    intro e store store' hkeyed hexternal
    obtain ⟨hrows, _⟩ := external_store hexternal
    exact ⟨hrows.symm ▸ hkeyed, fun k q hq => hq.same hrows⟩

end Outline

/-! ## Rows that are lost -/

section Lost

variable {store store' : Store} {p : Process} {input : Input} {flow : Flow Process Answer}
  {tasks : List (SubscriptionId × Task)} {key : SubscriptionId}

/-- A call without tasks loses nothing. -/
theorem losesReply_of_tasks (h : p.tasks = []) : losesReply p input = false := by
  unfold losesReply
  split
  · rw [h]
    rfl
  · rfl

/-- A reply other than a failure loses nothing. -/
theorem not_losesReply {task : Option SubscriptionId} {reply : Reply}
    (h : ∀ error, reply ≠ .failed error) : ¬ losesReply p ⟨task, reply⟩ = true := by
  intro hloses
  unfold losesReply at hloses
  split at hloses
  · rename_i hEq
    cases hEq
    exact h _ rfl
  · cases hloses

theorem sending_of_any {f : SubscriptionId × Task → Bool} (h : tasks.any f = true)
    (hf : ∀ entry, f entry = true → entry.2.isSending = true) :
    ∃ key a, (key, Task.deliver a) ∈ tasks ∧ f (key, .deliver a) = true := by
  obtain ⟨⟨key, task⟩, hmem, hentry⟩ := List.any_eq_true.1 h
  have hsending := hf _ hentry
  cases task with
  | insert subscription => cases hsending
  | deliver a => exact ⟨key, a, hmem, hentry⟩

/-- The failed save of a first outcome leaves its row pending, and the call goes on without it. -/
theorem lost_of_losesReply (hp : Tidy store p) (h : Resumes cfg store p input store' flow)
    (hloses : losesReply p input = true) :
    ∃ id, Sends p.tasks id ∧ store'.deliveries = store.deliveries ∧ ¬ Sends (awaited flow) id := by
  cases h with
  | @taskThrown event data now tasks key a _ _ _ htask h =>
      cases h with
      | thrown hstage =>
          refine ⟨a.delivery.id, ⟨key, a, htask, rfl⟩, rfl, ?_⟩
          rw [awaited_fanOut, sends_drop_deliver hp.ready.2.1 hp.ready.2.2 htask]
          exact fun hsends => hsends.2 rfl
  | @notInserted event data now tasks key subscription error htask =>
      -- the key is the one of a task that has inserted its row
      obtain ⟨key', a, hmem, hentry⟩ := sending_of_any hloses fun entry hentry =>
        (Bool.and_eq_true_iff.1 hentry).2
      have hkey : key' = key := of_decide_eq_true (Bool.and_eq_true_iff.1 hentry).1
      rw [hkey] at hmem
      cases hp.ready.2.1 key a _ hmem htask
  | inserted htask hnew hsent => exact absurd hloses (not_losesReply nofun)
  | task htask h =>
      cases h with
      | settled hstage hreply hsame houtcome hnext => exact absurd hloses (not_losesReply hreply)
      | paused hstage => exact absurd hloses (not_losesReply nofun)
  | taskReturned htask h =>
      cases h with
      | saved hstage => exact absurd hloses (not_losesReply nofun)
  | _ =>
      rw [losesReply_of_tasks rfl] at hloses
      cases hloses

end Lost

/-! ## Whole runs -/

section Runs

variable {c c' : Calls Store Process Answer} {action : Action} {row : WebhookDelivery}

/-- The assertions of the outline, for calls with different ids. -/
structure Handed (c : Calls Store Process Answer) : Prop where
  calls : c.Keyed
  annotated : c.Annotated (fun store => Table.Keyed WebhookDelivery.id store.deliveries)
    (fun store _ p => Tidy store p) Unshared

theorem handed_boot (subscriptions : List WebhookSubscription) :
    Handed (.start (.boot subscriptions)) :=
  ⟨List.nodup_nil, Calls.Annotated.start List.nodup_nil⟩

theorem Handed.step (cfg : Config) (action : Action) (c c' : Calls Store Process Answer)
    (hc : Handed c) (h : instanceStep cfg action c = some c') : Handed c' := by
  cases action with
  | move m =>
      have hstep : (service cfg).step m c = some c' := h
      exact ⟨(Service.steps_of_step hstep).keyed hc.calls,
        (hands_outline cfg).step m c c' hc.annotated hstep⟩
  | stop =>
      cases h
      refine ⟨List.nodup_nil, hc.annotated.store, ?_, ?_⟩
      · intro id p hp
        cases hp
      · intro id k p q _ hp
        cases hp

/-- Every row is kept, or a call sends it for the first time. -/
def AllKept (c : Calls Store Process Answer) : Prop :=
  ∀ row ∈ c.store.deliveries,
    row.isKept = true ∨ ∃ id p, c.process id = some p ∧ Sends p.tasks row.id

/-- A pending row that no call sends. -/
structure Orphan (c : Calls Store Process Answer) (row : WebhookDelivery) : Prop where
  stored : row ∈ c.store.deliveries
  pending : row.status = .pending
  unsent : ∀ id p, c.process id = some p → ¬ Sends p.tasks row.id

/-- Where no outcome is lost, a row is kept, or the call sends it now, or it was there before and the
call did not send it. -/
theorem Footprint.rows {p : Process} {input : Input} {store store' : Store}
    {flow : Flow Process Answer} (h : Footprint p input store store' flow)
    (hkeeps : losesReply p input = false) (hrow : row ∈ store'.deliveries) :
    row.isKept = true ∨ Sends (awaited flow) row.id ∨
      (row ∈ store.deliveries ∧ ¬ Sends p.tasks row.id) := by
  -- by whether the call was sending the row before the step
  by_cases hsent : Sends p.tasks row.id
  · cases h with
    | quiet hrows hafter => exact Or.inr (Or.inl ((hafter row.id).2 hsent))
    | saved entity hrows hkept hown hafter =>
        rw [hrows] at hrow
        rcases mem_saveDelivery.1 hrow with rfl | ⟨_, hne⟩
        · exact Or.inl hkept
        · exact Or.inr (Or.inl ((hafter row.id).2 ⟨hsent, hne⟩))
    | inserted entity hrows hnew hpending hafter =>
        exact Or.inr (Or.inl ((hafter row.id).2 (Or.inr hsent)))
    | lost id hloses hrows hown hafter =>
        rw [hkeeps] at hloses
        cases hloses
  · cases h with
    | quiet hrows hafter => exact Or.inr (Or.inr ⟨hrows ▸ hrow, hsent⟩)
    | saved entity hrows hkept hown hafter =>
        rw [hrows] at hrow
        rcases mem_saveDelivery.1 hrow with rfl | ⟨hmem, _⟩
        · exact Or.inl hkept
        · exact Or.inr (Or.inr ⟨hmem, hsent⟩)
    | inserted entity hrows hnew hpending hafter =>
        rw [hrows] at hrow
        rcases mem_saveDelivery.1 hrow with rfl | ⟨hmem, _⟩
        · exact Or.inr (Or.inl ((hafter row.id).2 (Or.inl rfl)))
        · exact Or.inr (Or.inr ⟨hmem, hsent⟩)
    | lost id hloses hrows hown hafter =>
        rw [hkeeps] at hloses
        cases hloses

theorem sends_go {id : CallId} {store : Store} {flow : Flow Process Answer} {d : DeliveryId}
    (h : Sends (awaited flow) d) :
    ∃ k p, (c.go id store flow).process k = some p ∧ Sends p.tasks d := by
  cases flow with
  | await q => exact ⟨id, q, Calls.process_go_self.2 rfl, h⟩
  | answer answer => exact absurd h not_sends_nil

theorem awaited_start (request : Request) (store : Store) : awaited (start request store).2 = [] := by
  cases request with
  | emit event data => rfl
  | processDue =>
      simp only [start]
      split
      · rfl
      · rfl

/-- A step that loses no outcome. -/
theorem AllKept.step (hc : Handed c) (hall : AllKept c) (h : instanceStep cfg action c = some c')
    (hkeeps : losesOutcome action c = false) : AllKept c' := by
  cases action with
  | stop =>
      cases h
      intro row hrow
      rcases hall row hrow with hkept | ⟨id, p, hp, key, a, htask, _⟩
      · exact Or.inl hkept
      · -- a call that was sending would have lost an outcome
        have hloses : losesOutcome .stop c = true := by
          refine List.any_eq_true.2 ⟨(id, p), ?_, List.any_eq_true.2 ⟨(key, .deliver a), htask, rfl⟩⟩
          obtain ⟨⟨k, q⟩, hlookup, rfl⟩ := Option.map_eq_some_iff.1 hp
          have hkey : k = id := Table.key_of_lookup hlookup
          exact hkey ▸ Table.mem_of_lookup hlookup
        rw [hloses] at hkeeps
        cases hkeeps
  | move m =>
      cases Service.steps_of_step (S := service cfg) h with
      | call id request hnew hunanswered =>
          intro row hrow
          have hsame : row ∈ c.store.deliveries := by
            rw [Calls.store_go] at hrow
            exact (start_rows request c.store).1 ▸ hrow
          rcases hall row hsame with hkept | ⟨k, p, hp, hsends⟩
          · exact Or.inl hkept
          · -- the call that sends the row is another one
            have hk : id ≠ k := by
              rintro rfl
              rw [hnew] at hp
              cases hp
            exact Or.inr ⟨k, p, (Calls.process_go_of_ne hk).trans hp, hsends⟩
      | resume id p input store flow hp hresume =>
          have hloses : losesReply p input = false := by
            have hany : (c.process id).any (fun p => losesReply p input) = false := hkeeps
            rw [hp] at hany
            exact hany
          have hcarries := carries_of_resumes (hc.annotated.process id p hp) (resumes_of_resume hresume)
          intro row hrow
          rw [Calls.store_go] at hrow
          rcases hcarries.footprint.rows hloses hrow with hkept | hsends | ⟨hbefore, hunsent⟩
          · exact Or.inl hkept
          · exact Or.inr (sends_go hsends)
          · rcases hall row hbefore with hkept | ⟨k, q, hq, hsends⟩
            · exact Or.inl hkept
            · have hk : id ≠ k := by
                rintro rfl
                rw [hp] at hq
                cases hq
                exact hunsent hsends
              exact Or.inr ⟨k, q, (Calls.process_go_of_ne hk).trans hq, hsends⟩
      | external e store hexternal =>
          intro row hrow
          exact hall row ((external_store hexternal).1 ▸ hrow)

/-- A step that loses an outcome leaves a row behind. -/
theorem orphan_of_losesOutcome (hc : Handed c) (h : instanceStep cfg action c = some c')
    (hloses : losesOutcome action c = true) : ∃ row, Orphan c' row := by
  cases action with
  | stop =>
      cases h
      obtain ⟨⟨id, p⟩, hmem, hany⟩ := List.any_eq_true.1 hloses
      obtain ⟨key, a, htask, _⟩ := sending_of_any hany fun _ hentry => hentry
      have hp : c.process id = some p :=
        Option.map_eq_some_iff.2 ⟨(id, p), Table.lookup_of_mem hc.calls hmem, rfl⟩
      obtain ⟨row, hrow, _, hpending⟩ :=
        (hc.annotated.process id p hp).sending a.delivery.id ⟨key, a, htask, rfl⟩
      refine ⟨row, hrow, hpending, ?_⟩
      intro k q hq
      cases hq
  | move m =>
      cases Service.steps_of_step (S := service cfg) h with
      | call id request hnew hunanswered => cases hloses
      | external e store hexternal => cases hloses
      | resume id p input store flow hp hresume =>
          have hlost : losesReply p input = true := by
            have hany : (c.process id).any (fun p => losesReply p input) = true := hloses
            rw [hp] at hany
            exact hany
          have htidy := hc.annotated.process id p hp
          have hresumes := resumes_of_resume hresume
          obtain ⟨d, hown, hrows, hnot⟩ := lost_of_losesReply htidy hresumes hlost
          obtain ⟨row, hrow, rfl, hpending⟩ := htidy.sending d hown
          refine ⟨row, ?_, hpending, ?_⟩
          · rw [Calls.store_go]
            exact hrows.symm ▸ hrow
          · intro k q hq hsends
            rcases Calls.of_process_go hq with ⟨rfl, rfl⟩ | ⟨hk, hq⟩
            · exact hnot hsends
            · -- no two calls send one row
              exact hc.annotated.apart k id q p hk hq hp row.id hsends hown

/-- Nobody ever takes up a row that was left behind. -/
theorem Orphan.step (hc : Handed c) (horphan : Orphan c row)
    (h : instanceStep cfg action c = some c') : Orphan c' row := by
  cases action with
  | stop =>
      cases h
      refine ⟨horphan.stored, horphan.pending, ?_⟩
      intro id p hp
      cases hp
  | move m =>
      cases Service.steps_of_step (S := service cfg) h with
      | call id request hnew hunanswered =>
          refine ⟨?_, horphan.pending, ?_⟩
          · rw [Calls.store_go]
            exact (start_rows request c.store).1.symm ▸ horphan.stored
          · intro k p hp hsends
            rcases Calls.of_process_go hp with ⟨rfl, hflow⟩ | ⟨_, hold⟩
            · have hnone : awaited ((service cfg).start request c.store).2 = [] :=
                awaited_start request c.store
              rw [hflow] at hnone
              have htasks : p.tasks = [] := hnone
              rw [htasks] at hsends
              exact not_sends_nil hsends
            · exact horphan.unsent k p hold hsends
      | resume id p input store flow hp hresume =>
          have htidy := hc.annotated.process id p hp
          have hfootprint := (carries_of_resumes htidy (resumes_of_resume hresume)).footprint
          have hunsent := horphan.unsent id p hp
          refine ⟨?_, horphan.pending, ?_⟩
          · rw [Calls.store_go]
            exact hfootprint.pending hc.annotated.store htidy horphan.stored horphan.pending
              fun hsends => absurd hsends hunsent
          · intro k q hq hsends
            rcases Calls.of_process_go hq with ⟨rfl, rfl⟩ | ⟨_, hold⟩
            · -- a call sends what it sent before, or a row that it has just inserted
              rcases hfootprint.sends hsends with hbefore | ⟨hnew, _⟩
              · exact hunsent hbefore
              · exact Table.lookup_eq_none.1 hnew row horphan.stored rfl
            · exact horphan.unsent k q hold hsends
      | external e store hexternal =>
          exact ⟨(external_store hexternal).1.symm ▸ horphan.stored, horphan.pending, horphan.unsent⟩

theorem Orphan.run (hc : Handed c) (horphan : Orphan c row) {actions : List Action}
    (hrun : run (instanceStep cfg) actions c = some c') : Orphan c' row := by
  have hend : Handed c' ∧ Orphan c' row := by
    refine run_invariant (P := fun d => Handed d ∧ Orphan d row) ?_ ⟨hc, horphan⟩ hrun
    intro action d d' hd hstep
    exact ⟨hd.1.step cfg action d d' hstep, hd.2.step hd.1 hstep⟩
  exact hend.2

theorem handed_of_run {subscriptions : List WebhookSubscription} {actions : List Action}
    (hrun : run (instanceStep cfg) actions (.start (.boot subscriptions)) = some c) : Handed c :=
  run_invariant (Handed.step cfg) (handed_boot subscriptions) hrun

theorem allKept_of_attentive {subscriptions : List WebhookSubscription} {actions : List Action}
    (hrun : run (attentive cfg) actions (.start (.boot subscriptions)) = some c) : AllKept c := by
  have hend : Handed c ∧ AllKept c := by
    refine run_invariant (P := fun d => Handed d ∧ AllKept d) ?_
      ⟨handed_boot subscriptions, fun _ hrow => absurd hrow List.not_mem_nil⟩ hrun
    intro action d d' hd hstep
    obtain ⟨hkeeps, hstep⟩ := guarded_eq_some.1 hstep
    exact ⟨hd.1.step cfg action d d' hstep, hd.2.step hd.1 hstep hkeeps⟩
  exact hend.2

/-- The delivery is over, or it has failed and `findDueDeliveries` returns it from its next attempt
on, once the batch has room for the rows that are due by then. -/
def Recoverable (store : Store) (row : WebhookDelivery) : Prop :=
  row.status = .delivered ∨ row.status = .exhausted ∨
    (row.status = .failed ∧ ∃ t, row.nextAttemptAt = some t ∧
      ∀ now limit, t ≤ now → store.deliveries.countP (isDue t) ≤ limit →
        row ∈ findDueDeliveries store now limit)

theorem mem_findDueDeliveries_of_due {store : Store} {t now : Time} {limit : Nat}
    (hrow : row ∈ store.deliveries) (hfailed : row.status = .failed)
    (hnext : row.nextAttemptAt = some t) (hnow : t ≤ now)
    (hroom : store.deliveries.countP (isDue t) ≤ limit) :
    row ∈ findDueDeliveries store now limit := by
  have hdue : row ∈ store.deliveries.filter (isDue now) :=
    List.mem_filter.2 ⟨hrow, by simp [isDue, hfailed, hnext, hnow]⟩
  refine Arrange.mem_take_orderBy hdue (Nat.le_trans ?_ hroom)
  -- rows that are returned before this one were due by then as well
  rw [List.countP_filter]
  refine List.countP_mono_left ?_
  intro other _ hboth
  simp only [hnext, Option.getD_some, Bool.and_eq_true, decide_eq_true_eq, isDue,
    Option.any_eq_true] at hboth ⊢
  obtain ⟨hle, hotherFailed, u, hu, _⟩ := hboth
  rw [hu] at hle
  exact ⟨hotherFailed, u, hu, hle⟩

theorem recoverable_of_isKept {store : Store} (hrow : row ∈ store.deliveries)
    (h : row.isKept = true) : Recoverable store row := by
  cases hstatus : row.status with
  | pending => exact absurd hstatus (not_pending_of_isKept h)
  | delivered => exact Or.inl hstatus
  | exhausted => exact Or.inr (Or.inl hstatus)
  | failed =>
      simp only [WebhookDelivery.isKept, hstatus] at h
      obtain ⟨t, hnext⟩ := Option.isSome_iff_exists.1 h
      refine Or.inr (Or.inr ⟨hstatus, t, hnext, ?_⟩)
      intro now limit hnow hroom
      exact mem_findDueDeliveries_of_due hrow hstatus hnext hnow hroom

theorem Recoverable.not_pending {store : Store} (h : Recoverable store row) :
    row.status ≠ .pending := by
  rcases h with hstatus | hstatus | ⟨hstatus, _⟩
  · rw [hstatus]; nofun
  · rw [hstatus]; nofun
  · rw [hstatus]; nofun

/-- Over every run in which the process may stop and any storage operation may fail: whenever no
call is executing, every stored delivery can be recovered exactly if no step of the run has lost the
first outcome of a row. -/
theorem deliveries_kept_iff_no_outcome_lost {subscriptions : List WebhookSubscription}
    {actions : List Action}
    (hrun : run (instanceStep cfg) actions (.start (.boot subscriptions)) = some c)
    (hidle : c.processes = []) :
    (∀ row ∈ c.store.deliveries, Recoverable c.store row) ↔
      run (attentive cfg) actions (.start (.boot subscriptions)) = some c := by
  constructor
  · intro hall
    rcases run_guarded_or (G := fun a c => losesOutcome a c = false) hrun with
      hattentive | ⟨before, action, after, t, t', _, hbefore, hloses, hstep, hafter⟩
    · exact hattentive
    · -- the row that was left behind is still there
      have ht : Handed t := handed_of_run hbefore
      obtain ⟨row, horphan⟩ := orphan_of_losesOutcome ht hstep (eq_true_of_ne_false hloses)
      have hend : Orphan c row := horphan.run (ht.step cfg action t t' hstep) hafter
      exact absurd hend.pending (hall row hend.stored).not_pending
  · intro hattentive row hrow
    rcases allKept_of_attentive hattentive row hrow with hkept | ⟨id, p, hp, _⟩
    · exact recoverable_of_isKept hrow hkept
    · rw [Calls.process, hidle] at hp
      cases hp

end Runs

/-! The process stops while the first request is in flight, or the save of its answer fails. -/

def insertedRow : List Action :=
  [.move (.call 0 (.emit .settlementSettled "settlementId")), .move (.resume 0 ⟨none, .done⟩),
    .move (.resume 0 ⟨some 1, .inserted 7⟩)]

def stoppedEmit : List Action := insertedRow ++ [.stop]

def unsavedEmit : List Action :=
  insertedRow ++ [.move (.resume 0 ⟨some 1, .answered 500⟩),
    .move (.resume 0 ⟨some 1, .failed "Connection terminated"⟩)]

/-- A run that ends with its first row pending while no call is executing. -/
theorem unrecoverable_of_run {actions : List Action}
    (hreached : ((run (instanceStep sampleConfig) actions
      (.start (.boot [sampleSubscription]))).any fun c =>
        c.processes.isEmpty && c.store.deliveries.head?.any fun row => row.status = .pending) = true) :
    ∃ c row, run (instanceStep sampleConfig) actions (.start (.boot [sampleSubscription])) = some c ∧
      c.processes = [] ∧ row ∈ c.store.deliveries ∧ row.status = .pending ∧
      ¬ Recoverable c.store row := by
  rcases (Option.any_eq_true _ _).1 hreached with ⟨c, hc, hrest⟩
  rcases Bool.and_eq_true_iff.1 hrest with ⟨hidle, hhead⟩
  rcases (Option.any_eq_true _ _).1 hhead with ⟨row, hrow, hpending⟩
  have hstatus : row.status = .pending := of_decide_eq_true hpending
  exact ⟨c, row, hc, List.isEmpty_iff.1 hidle, List.mem_of_head? hrow, hstatus,
    fun h => h.not_pending hstatus⟩

theorem first_outcome_lost :
    (∃ c row, run (instanceStep sampleConfig) stoppedEmit
        (.start (.boot [sampleSubscription])) = some c ∧
      c.processes = [] ∧ row ∈ c.store.deliveries ∧ row.status = .pending ∧
      ¬ Recoverable c.store row) ∧
    ∃ c row, run (instanceStep sampleConfig) unsavedEmit
        (.start (.boot [sampleSubscription])) = some c ∧
      c.processes = [] ∧ row ∈ c.store.deliveries ∧ row.status = .pending ∧
      ¬ Recoverable c.store row := by
  refine ⟨unrecoverable_of_run ?_, unrecoverable_of_run ?_⟩
  · decide +kernel
  · decide +kernel

/-! Later attempts may be cut short: the save of one fails, and the process stops during another. -/

def interruptedTicks : List Action :=
  sampleEmit.map .move ++
    [.move (.external (.elapse 1000)), .move (.call 1 .processDue), .move (.resume 1 ⟨none, .done⟩),
      .move (.resume 1 ⟨none, .done⟩), .move (.resume 1 ⟨none, .answered 200⟩),
      .move (.resume 1 ⟨none, .failed "Connection terminated"⟩), .move (.call 2 .processDue),
      .move (.resume 2 ⟨none, .done⟩), .move (.resume 2 ⟨none, .done⟩), .stop]

theorem deliveries_kept_iff_no_outcome_lost_sample :
    ∃ c row, run (instanceStep sampleConfig) interruptedTicks
        (.start (.boot [sampleSubscription])) = some c ∧
      c.processes = [] ∧ row ∈ c.store.deliveries ∧ row.status = .failed ∧
      Recoverable c.store row := by
  have hreached : ((run (attentive sampleConfig) interruptedTicks
      (.start (.boot [sampleSubscription]))).any fun c =>
        c.processes.isEmpty && c.store.deliveries.head?.any fun row => row.status = .failed) =
          true := by
    decide +kernel
  rcases (Option.any_eq_true _ _).1 hreached with ⟨c, hc, hrest⟩
  rcases Bool.and_eq_true_iff.1 hrest with ⟨hempty, hhead⟩
  rcases (Option.any_eq_true _ _).1 hhead with ⟨row, hrow, hfailed⟩
  have hidle : c.processes = [] := List.isEmpty_iff.1 hempty
  have hmem : row ∈ c.store.deliveries := List.mem_of_head? hrow
  have hrun := run_of_guarded hc
  exact ⟨c, row, hrun, hidle, hmem, of_decide_eq_true hfailed,
    (deliveries_kept_iff_no_outcome_lost hrun hidle).2 hc row hmem⟩

end Webhooks
end PaymentRail
