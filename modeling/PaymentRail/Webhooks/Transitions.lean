import PaymentRail.Webhooks.WebhooksService

/-!
# Transitions — what a step of the webhooks service can do

`Delivers` and `Resumes` list the branches of `deliver` and of the calls, with what each of them
reads and writes; every safety proof about webhooks is by cases on them.  `Outcome` says what
`deliver` makes of a delivery, on whatever branch.
-/

namespace PaymentRail
namespace Webhooks

open Machine Collections

/-! ## The outcome of an attempt -/

/-- What `deliver` promises of a delivery once the attempt is over. -/
structure Outcome (cfg : Config) (now : Time) (delivery : WebhookDelivery) : Prop where
  notPending : delivery.status ≠ .pending
  nextAttemptAt : delivery.nextAttemptAt ≠ none ↔ delivery.status = .failed
  failed : delivery.status = .failed → delivery.attempts < cfg.maxAttempts ∧
    delivery.nextAttemptAt = some (now + cfg.backoffMs delivery.attempts)

theorem outcome_schedule (cfg : Config) (now : Time) {recorded : WebhookDelivery}
    (h : recorded.status ≠ .pending) : Outcome cfg now (schedule cfg now recorded) := by
  simp only [schedule]
  split
  · rename_i hfailed
    split
    · -- 410 Gone
      exact ⟨nofun, ⟨fun hnone => absurd rfl hnone, nofun⟩, nofun⟩
    · split
      · -- the attempts are used up
        exact ⟨nofun, ⟨fun hnone => absurd rfl hnone, nofun⟩, nofun⟩
      · rename_i hleft
        refine ⟨h, ⟨fun _ => hfailed, fun _ => nofun⟩, fun _ => ⟨?_, rfl⟩⟩
        exact Nat.lt_of_not_le hleft
  · rename_i hdelivered
    exact ⟨h, ⟨fun hnone => absurd rfl hnone, fun hEq => absurd hEq hdelivered⟩,
      fun hEq => absurd hEq hdelivered⟩

theorem recordAnswer_status (now : Time) (delivery : WebhookDelivery) (status : Nat) :
    (recordAnswer now delivery status).status ≠ .pending := by
  unfold recordAnswer
  split
  · nofun
  · nofun

/-- The attempt of a delivery, whatever its outcome. -/
structure SameAttempt (delivery entity : WebhookDelivery) : Prop where
  id : entity.id = delivery.id
  attempts : entity.attempts = delivery.attempts

theorem sameAttempt_schedule (cfg : Config) (now : Time) (recorded : WebhookDelivery) :
    SameAttempt recorded (schedule cfg now recorded) := by
  simp only [schedule]
  split
  · split
    · exact ⟨rfl, rfl⟩
    · split
      · exact ⟨rfl, rfl⟩
      · exact ⟨rfl, rfl⟩
  · exact ⟨rfl, rfl⟩

theorem sameAttempt_recordAnswer (now : Time) (delivery : WebhookDelivery) (status : Nat) :
    SameAttempt delivery (recordAnswer now delivery status) := by
  unfold recordAnswer
  split
  · exact ⟨rfl, rfl⟩
  · exact ⟨rfl, rfl⟩

theorem SameAttempt.trans {a b c : WebhookDelivery} (h : SameAttempt a b) (h' : SameAttempt b c) :
    SameAttempt a c :=
  ⟨h'.id.trans h.id, h'.attempts.trans h.attempts⟩

/-- The outcome is in memory and one of the two saves comes next. -/
theorem settle_delivery (cfg : Config) (now : Time) (recorded : WebhookDelivery)
    (subscription : WebhookSubscription) :
    (settle cfg now recorded subscription).delivery = schedule cfg now recorded ∧
      (settle cfg now recorded subscription).stage ≠ .post := by
  unfold settle
  split
  · exact ⟨rfl, nofun⟩
  · exact ⟨rfl, nofun⟩

/-! ## The branches of `deliver` -/

inductive Delivers (cfg : Config) (now : Time) (store : Store) :
    Attempt → Reply → Store → Turn → Prop where
  /-- The request is over; `a'` has the outcome in memory. -/
  | settled {a a' : Attempt} {reply : Reply} (hstage : a.stage = .post)
      (hreply : ∀ error, reply ≠ .failed error) (hsame : SameAttempt a.delivery a'.delivery)
      (houtcome : Outcome cfg now a'.delivery)
      (hnext : a'.stage ≠ .post) : Delivers cfg now store a reply store (.await a')
  | paused {a : Attempt} (hstage : a.stage = .saveSubscription) :
      Delivers cfg now store a .done (store.saveSubscription a.subscription)
        (.await { a with stage := .saveDelivery })
  | saved {a : Attempt} (hstage : a.stage = .saveDelivery) :
      Delivers cfg now store a .done (store.saveDelivery a.delivery) (.returned a.delivery)
  | thrown {a : Attempt} {error : String} (hstage : a.stage ≠ .post) :
      Delivers cfg now store a (.failed error) store (.thrown error)

theorem delivers_of_deliverStep {cfg : Config} {now : Time} {a : Attempt} {reply : Reply}
    {store store' : Store} {turn : Turn}
    (h : deliverStep cfg now a reply store = some (store', turn)) :
    Delivers cfg now store a reply store' turn := by
  unfold deliverStep at h
  split at h
  · rename_i status hstage
    cases h
    have hsettle := settle_delivery cfg now (recordAnswer now a.delivery status) a.subscription
    refine .settled hstage nofun ?_ ?_ hsettle.2
    · rw [hsettle.1]
      exact (sameAttempt_recordAnswer now a.delivery status).trans (sameAttempt_schedule cfg now _)
    · rw [hsettle.1]
      exact outcome_schedule cfg now (recordAnswer_status now a.delivery status)
  · rename_i error hstage
    cases h
    have hsettle := settle_delivery cfg now (recordError a.delivery error) a.subscription
    refine .settled hstage nofun ?_ ?_ hsettle.2
    · rw [hsettle.1]
      have hrecord : SameAttempt a.delivery (recordError a.delivery error) := ⟨rfl, rfl⟩
      exact hrecord.trans (sameAttempt_schedule cfg now _)
    · rw [hsettle.1]
      exact outcome_schedule cfg now nofun
  · rename_i hstage
    cases h
    exact .paused hstage
  · rename_i hstage
    cases h
    exact .saved hstage
  · rename_i error hstage
    cases h
    exact .thrown (by rw [hstage]; nofun)
  · rename_i error hstage
    cases h
    exact .thrown (by rw [hstage]; nofun)
  · cases h

/-! ## The branches of the calls -/

/-- `deliver` has sent the request of a delivery. -/
def Sent (cfg : Config) (now : Time) (delivery : WebhookDelivery)
    (subscription : WebhookSubscription) (store store' : Store) (a : Attempt) : Prop :=
  send cfg now delivery subscription store = (store', a)

inductive Resumes (cfg : Config) (store : Store) :
    Process → Input → Store → Flow Process Answer → Prop where
  | foundActive {event data now task} :
      Resumes cfg store (.findActive event data now) ⟨task, .done⟩ store
        (fanOut event data now (interested store event))
  | notFoundActive {event data now task error} :
      Resumes cfg store (.findActive event data now) ⟨task, .failed error⟩ store (.answer .emitted)
  /-- A row is inserted and its first request is sent. -/
  | inserted {event data now tasks key subscription id store' a}
      (htask : (key, Task.insert subscription) ∈ tasks) (hnew : store.findDelivery id = none)
      (hsent : Sent cfg now (newDelivery id subscription event data store.clock) subscription
        (store.saveDelivery (newDelivery id subscription event data store.clock)) store' a) :
      Resumes cfg store (.fanOut event data now tasks) ⟨some key, .inserted id⟩ store'
        (fanOut event data now (Table.put Prod.fst tasks (key, .deliver a)))
  | notInserted {event data now tasks key subscription error}
      (htask : (key, Task.insert subscription) ∈ tasks) :
      Resumes cfg store (.fanOut event data now tasks) ⟨some key, .failed error⟩ store
        (fanOut event data now (Table.drop Prod.fst tasks key))
  | task {event data now tasks key a a' reply store'} (htask : (key, Task.deliver a) ∈ tasks)
      (h : Delivers cfg now store a reply store' (.await a')) :
      Resumes cfg store (.fanOut event data now tasks) ⟨some key, reply⟩ store'
        (fanOut event data now (Table.put Prod.fst tasks (key, .deliver a')))
  | taskReturned {event data now tasks key a reply store' delivery}
      (htask : (key, Task.deliver a) ∈ tasks)
      (h : Delivers cfg now store a reply store' (.returned delivery)) :
      Resumes cfg store (.fanOut event data now tasks) ⟨some key, reply⟩ store'
        (fanOut event data now (Table.drop Prod.fst tasks key))
  | taskThrown {event data now tasks key a reply store' error}
      (htask : (key, Task.deliver a) ∈ tasks)
      (h : Delivers cfg now store a reply store' (.thrown error)) :
      Resumes cfg store (.fanOut event data now tasks) ⟨some key, reply⟩ store'
        (fanOut event data now (Table.drop Prod.fst tasks key))
  | foundDue {now task store' flow}
      (h : nextDue ⟨now, findDueDeliveries store now cfg.batchSize, ⟨true, 0, 0, 0⟩⟩ store =
        (store', flow)) :
      Resumes cfg store (.findDueDeliveries now) ⟨task, .done⟩ store' flow
  | notFoundDue {now task error} :
      Resumes cfg store (.findDueDeliveries now) ⟨task, .failed error⟩
        { store with running := false } (.answer (.threw error))
  /-- The subscription is there and active, and the next request is sent. -/
  | resent {tick delivery task subscription store' a}
      (hsubscription : store.findSubscription delivery.subscriptionId = some subscription)
      (hactive : subscription.active = true)
      (hsent : Sent cfg tick.now delivery subscription store store' a) :
      Resumes cfg store (.findSubscription tick delivery) ⟨task, .done⟩ store'
        (.await (.redeliver tick a))
  | abandoned {tick delivery task} :
      Resumes cfg store (.findSubscription tick delivery) ⟨task, .done⟩ store
        (.await (.giveUp tick (abandon delivery)))
  | notFoundSubscription {tick delivery task error} :
      Resumes cfg store (.findSubscription tick delivery) ⟨task, .failed error⟩
        { store with running := false } (.answer (.threw error))
  | gaveUp {tick delivery task store' flow}
      (h : nextDue { tick with result := tick.result.count delivery }
        (store.saveDelivery delivery) = (store', flow)) :
      Resumes cfg store (.giveUp tick delivery) ⟨task, .done⟩ store' flow
  | notGivenUp {tick delivery task error} :
      Resumes cfg store (.giveUp tick delivery) ⟨task, .failed error⟩
        { store with running := false } (.answer (.threw error))
  | redelivers {tick a a' task reply store'}
      (h : Delivers cfg tick.now store a reply store' (.await a')) :
      Resumes cfg store (.redeliver tick a) ⟨task, reply⟩ store' (.await (.redeliver tick a'))
  | redelivered {tick a task reply saved store' delivery flow}
      (h : Delivers cfg tick.now store a reply saved (.returned delivery))
      (hnext : nextDue { tick with result := tick.result.count delivery } saved = (store', flow)) :
      Resumes cfg store (.redeliver tick a) ⟨task, reply⟩ store' flow
  | notRedelivered {tick a task reply store' error}
      (h : Delivers cfg tick.now store a reply store' (.thrown error)) :
      Resumes cfg store (.redeliver tick a) ⟨task, reply⟩ { store' with running := false }
        (.answer (.threw error))

section Inversion

variable {cfg : Config} {store store' : Store} {flow : Flow Process Answer} {input : Input}

/-- A task of `emit` under the key of its subscription. -/
theorem resumes_task {event : WebhookEvent} {data : Payload} {now : Time}
    {tasks : List (SubscriptionId × Task)} {key : SubscriptionId} {task : Task} {reply : Reply}
    {next : Option Task} (htask : (key, task) ∈ tasks)
    (h : taskStep cfg event data now task reply store = some (store', next)) :
    Resumes cfg store (.fanOut event data now tasks) ⟨some key, reply⟩ store'
      (fanOut event data now (next.elim (Table.drop Prod.fst tasks key)
        fun task => Table.put Prod.fst tasks (key, task))) := by
  cases task with
  | insert subscription =>
      simp only [taskStep] at h
      split at h
      · split at h
        · rename_i hnew
          cases h
          exact .inserted htask hnew rfl
        · cases h
      · cases h
        exact .notInserted htask
      · cases h
  | deliver a =>
      simp only [taskStep] at h
      split at h
      · rename_i saved a' hstep
        cases h
        exact .task htask (delivers_of_deliverStep hstep)
      · rename_i saved delivery hstep
        cases h
        exact .taskReturned htask (delivers_of_deliverStep hstep)
      · rename_i saved error hstep
        cases h
        exact .taskThrown htask (delivers_of_deliverStep hstep)
      · cases h

theorem resumes_of_resume {p : Process} (h : resume cfg p input store = some (store', flow)) :
    Resumes cfg store p input store' flow := by
  rcases input with ⟨task, reply⟩
  cases p with
  | findActive event data now =>
      simp only [resume] at h
      split at h
      · cases h
        exact .foundActive
      · cases h
        exact .notFoundActive
      · cases h
  | fanOut event data now tasks =>
      simp only [resume] at h
      split at h
      · cases h
      · rename_i key
        split at h
        · cases h
        · rename_i found task hlookup
          have hkey : found = key := Table.key_of_lookup hlookup
          subst hkey
          have htask : (found, task) ∈ tasks := Table.mem_of_lookup hlookup
          split at h
          · rename_i hstep
            cases h
            exact resumes_task htask hstep
          · rename_i hstep
            cases h
            exact resumes_task htask hstep
          · cases h
  | findDueDeliveries now =>
      simp only [resume] at h
      split at h
      · exact .foundDue (Option.some.inj h)
      · cases h
        exact .notFoundDue
      · cases h
  | findSubscription tick delivery =>
      simp only [resume] at h
      split at h
      · split at h
        · rename_i subscription hsubscription
          split at h
          · rename_i hactive
            cases h
            exact .resent hsubscription hactive rfl
          · cases h
            exact .abandoned
        · cases h
          exact .abandoned
      · cases h
        exact .notFoundSubscription
      · cases h
  | giveUp tick delivery =>
      simp only [resume] at h
      split at h
      · exact .gaveUp (Option.some.inj h)
      · cases h
        exact .notGivenUp
      · cases h
  | redeliver tick a =>
      simp only [resume] at h
      split at h
      · rename_i saved turn hstep
        have hdelivers := delivers_of_deliverStep hstep
        cases turn with
        | await a' =>
            cases h
            exact .redelivers hdelivers
        | returned delivery => exact .redelivered hdelivers (Option.some.inj h)
        | thrown error =>
            cases h
            exact .notRedelivered hdelivers
      · cases h

end Inversion

/-! ## Small facts about the steps -/

/-- A tick takes its next delivery, or it is over. -/
theorem nextDue_cases {tick : Tick} {store store' : Store} {flow : Flow Process Answer}
    (h : nextDue tick store = (store', flow)) :
    (tick.rest = [] ∧ store' = { store with running := false } ∧
      flow = .answer (.processed tick.result)) ∨
    ∃ delivery rest, tick.rest = delivery :: rest ∧ store' = store ∧
      flow = .await (.findSubscription { tick with rest } delivery) := by
  unfold nextDue at h
  split at h
  · rename_i hrest
    cases h
    exact Or.inl ⟨hrest, rfl, rfl⟩
  · rename_i delivery rest hrest
    cases h
    exact Or.inr ⟨delivery, rest, hrest, rfl, rfl⟩

theorem fanOut_awaits {P : Process → Prop} {event : WebhookEvent} {data : Payload} {now : Time}
    {tasks : List (SubscriptionId × Task)} (h : P (.fanOut event data now tasks)) :
    (fanOut event data now tasks).Awaits P := by
  cases tasks with
  | nil => trivial
  | cons task tasks => exact h

/-- A task of `emit` that has not inserted its row yet has sent nothing. -/
theorem deliver_notMem_interested {store : Store} {event : WebhookEvent} {key : SubscriptionId}
    {a : Attempt} : (key, Task.deliver a) ∉ interested store event := by
  intro h
  rcases List.mem_map.1 h with ⟨subscription, _, hEq⟩
  cases hEq

theorem mem_findDueDeliveries {store : Store} {now : Time} {limit : Nat}
    {delivery : WebhookDelivery} (h : delivery ∈ findDueDeliveries store now limit) :
    delivery ∈ store.deliveries ∧ isDue now delivery = true := by
  have hmem := Arrange.mem_orderBy.1 (List.mem_of_mem_take h)
  exact List.mem_filter.1 hmem

theorem nodup_findDueDeliveries {store : Store}
    (hkeyed : Table.Keyed WebhookDelivery.id store.deliveries) (now : Time) (limit : Nat) :
    ((findDueDeliveries store now limit).map WebhookDelivery.id).Nodup := by
  have hfilter : ((store.deliveries.filter (isDue now)).map WebhookDelivery.id).Nodup :=
    List.Nodup.sublist (List.filter_sublist.map _) hkeyed
  have hperm : (Arrange.orderBy (fun delivery : WebhookDelivery => delivery.nextAttemptAt.getD 0)
      (store.deliveries.filter (isDue now))).Perm (store.deliveries.filter (isDue now)) :=
    Arrange.perm_orderBy _
  have hsorted := (hperm.map WebhookDelivery.id).nodup_iff.2 hfilter
  exact List.Nodup.sublist ((List.take_sublist _ _).map _) hsorted

/-- Time goes on. -/
theorem external_store {e : Event} {store store' : Store} (h : external e store = some store') :
    store'.deliveries = store.deliveries ∧ store'.posts = store.posts ∧
      store'.running = store.running ∧ store.clock ≤ store'.clock := by
  cases e with
  | create subscription =>
      simp only [external] at h
      split at h
      · cases h
        exact ⟨rfl, rfl, rfl, le_refl _⟩
      · cases h
  | remove id =>
      cases h
      exact ⟨rfl, rfl, rfl, le_refl _⟩
  | rotateSecret id secret =>
      rcases Option.map_eq_some_iff.1 h with ⟨subscription, _, rfl⟩
      exact ⟨rfl, rfl, rfl, le_refl _⟩
  | setActive id active =>
      rcases Option.map_eq_some_iff.1 h with ⟨subscription, _, rfl⟩
      exact ⟨rfl, rfl, rfl, le_refl _⟩
  | elapse ms =>
      cases h
      exact ⟨rfl, rfl, rfl, Nat.le_add_right _ _⟩

end Webhooks
end PaymentRail
