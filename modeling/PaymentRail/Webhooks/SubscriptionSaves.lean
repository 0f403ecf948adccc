import PaymentRail.Webhooks.WebhooksService

/-!
# SubscriptionSaves — which subscriptions the delivering calls save

`emit` and `redeliver` read subscriptions, keep them in memory during a request, and save one only if
its endpoint has answered 410.  `resume_saves` says of every step which entity it saves, if any, and
where the entities come from that the call has in memory afterwards.
-/

namespace PaymentRail
namespace Webhooks

open Machine Collections

/-! ## Entities in memory -/

/-- The subscription that is saved by the next step: its endpoint has answered 410. -/
def Attempt.pausing (a : Attempt) (reply : Reply) : Option WebhookSubscription :=
  if a.stage = .saveSubscription ∧ reply = .done then some a.subscription else none

def Task.pausing : Task → Reply → Option WebhookSubscription
  | .insert _, _ => none
  | .deliver a, reply => a.pausing reply

def Process.pausing : Process → Input → Option WebhookSubscription
  | .fanOut _ _ _ tasks, input =>
      input.task.bind fun key => (Table.lookup Prod.fst tasks key).bind fun entry =>
        entry.2.pausing input.reply
  | .redeliver _ a, input => a.pausing input.reply
  | _, _ => none

def Task.subscription : Task → WebhookSubscription
  | .insert subscription => subscription
  | .deliver a => a.subscription

/-- The subscriptions that a call has in memory. -/
def Process.inMemory : Process → List WebhookSubscription
  | .fanOut _ _ _ tasks => tasks.map fun entry => entry.2.subscription
  | .redeliver _ a => [a.subscription]
  | _ => []

/-- The table once an entity is saved. -/
def saved (subscriptions : List WebhookSubscription) :
    Option WebhookSubscription → List WebhookSubscription
  | some entity => Table.put WebhookSubscription.id subscriptions entity
  | none => subscriptions

/-- The same subscription, with the same secret. -/
structure SameSecret (e e' : WebhookSubscription) : Prop where
  id : e'.id = e.id
  secret : e'.secret = e.secret

theorem SameSecret.refl (e : WebhookSubscription) : SameSecret e e := ⟨rfl, rfl⟩

/-! ## Steps -/

section Saves

variable {cfg : Config} {now : Time} {store store' : Store}

theorem sameSecret_settle (recorded : WebhookDelivery) (subscription : WebhookSubscription) :
    SameSecret subscription (settle cfg now recorded subscription).subscription := by
  unfold settle
  split
  · exact ⟨rfl, rfl⟩
  · exact ⟨rfl, rfl⟩

theorem deliverStep_saves {a : Attempt} {reply : Reply} {turn : Turn}
    (h : deliverStep cfg now a reply store = some (store', turn)) :
    store'.subscriptions = saved store.subscriptions (a.pausing reply) ∧
      ∀ a', turn = .await a' → SameSecret a.subscription a'.subscription := by
  unfold deliverStep at h
  split at h
  -- the answer, or no answer, to the request
  · rename_i status hstage
    cases h
    refine ⟨by simp [Attempt.pausing, hstage, saved], ?_⟩
    rintro a' ⟨⟩
    exact sameSecret_settle _ _
  · rename_i error hstage
    cases h
    refine ⟨by simp [Attempt.pausing, hstage, saved], ?_⟩
    rintro a' ⟨⟩
    exact sameSecret_settle _ _
  -- the two saves
  · rename_i hstage
    cases h
    refine ⟨by simp [Attempt.pausing, hstage, saved, Store.saveSubscription], ?_⟩
    rintro a' ⟨⟩
    exact .refl _
  · rename_i hstage
    cases h
    refine ⟨by simp [Attempt.pausing, hstage, saved, Store.saveDelivery], ?_⟩
    rintro a' ⟨⟩
  · rename_i error hstage
    cases h
    refine ⟨by simp [Attempt.pausing, saved], ?_⟩
    rintro a' ⟨⟩
  · rename_i error hstage
    cases h
    refine ⟨by simp [Attempt.pausing, saved], ?_⟩
    rintro a' ⟨⟩
  · cases h

theorem taskStep_saves {event : WebhookEvent} {data : Payload} {task : Task} {reply : Reply}
    {next : Option Task} (h : taskStep cfg event data now task reply store = some (store', next)) :
    store'.subscriptions = saved store.subscriptions (task.pausing reply) ∧
      ∀ task', next = some task' → SameSecret task.subscription task'.subscription := by
  cases task with
  | insert subscription =>
      simp only [taskStep] at h
      split at h
      · split at h
        · cases h
          refine ⟨rfl, ?_⟩
          rintro task' ⟨⟩
          exact .refl _
        · cases h
      · cases h
        refine ⟨rfl, ?_⟩
        rintro task' ⟨⟩
      · cases h
  | deliver a =>
      simp only [taskStep] at h
      split at h
      · rename_i hstep
        cases h
        have hsaves := deliverStep_saves hstep
        refine ⟨hsaves.1, ?_⟩
        rintro task' ⟨⟩
        exact hsaves.2 _ rfl
      · rename_i hstep
        cases h
        refine ⟨(deliverStep_saves hstep).1, ?_⟩
        rintro task' ⟨⟩
      · rename_i hstep
        cases h
        refine ⟨(deliverStep_saves hstep).1, ?_⟩
        rintro task' ⟨⟩
      · cases h

theorem eq_of_pausing {a : Attempt} {reply : Reply} {e : WebhookSubscription}
    (h : a.pausing reply = some e) : a.subscription = e := by
  unfold Attempt.pausing at h
  split at h
  · cases h
    rfl
  · cases h

theorem mem_inMemory_of_pausing {p : Process} {input : Input} {e : WebhookSubscription}
    (h : p.pausing input = some e) : e ∈ p.inMemory := by
  unfold Process.pausing at h
  split at h
  · rcases Option.bind_eq_some_iff.1 h with ⟨key, _, h⟩
    rcases Option.bind_eq_some_iff.1 h with ⟨⟨found, task⟩, hlookup, htask⟩
    cases task with
    | insert subscription => cases htask
    | deliver a =>
        rw [← eq_of_pausing htask]
        exact List.mem_map_of_mem (Table.mem_of_lookup hlookup)
  · rw [← eq_of_pausing h]
    exact List.mem_singleton_self _
  · cases h

/-- What a call has in memory it had there before, or has just read. -/
def Recalls (store : Store) (p q : Process) : Prop :=
  ∀ e' ∈ q.inMemory, (∃ e ∈ p.inMemory, SameSecret e e') ∨ e' ∈ store.subscriptions

theorem fanOut_recalls {event : WebhookEvent} {data : Payload} {tasks : List (SubscriptionId × Task)}
    {p : Process} (h : Recalls store p (.fanOut event data now tasks)) :
    (fanOut event data now tasks).Awaits (Recalls store p) := by
  cases tasks with
  | nil => trivial
  | cons entry rest => exact h

theorem nextDue_saves {tick : Tick} {before : Store} {flow : Flow Process Answer}
    (h : nextDue tick before = (store', flow)) (p : Process) :
    store'.subscriptions = before.subscriptions ∧ flow.Awaits (Recalls store p) := by
  unfold nextDue at h
  split at h
  · cases h
    exact ⟨rfl, trivial⟩
  · cases h
    exact ⟨rfl, fun _ he' => absurd he' List.not_mem_nil⟩

theorem redeliverTurn_saves {tick : Tick} {before : Store} {a : Attempt} {turn : Turn}
    {flow : Flow Process Answer} (h : redeliverTurn tick before turn = (store', flow))
    (hsame : ∀ a', turn = .await a' → SameSecret a.subscription a'.subscription) :
    store'.subscriptions = before.subscriptions ∧
      flow.Awaits (Recalls store (.redeliver tick a)) := by
  cases turn with
  | await a' =>
      cases h
      refine ⟨rfl, ?_⟩
      intro e' he'
      rw [List.mem_singleton.1 he']
      exact Or.inl ⟨a.subscription, List.mem_singleton_self _, hsame a' rfl⟩
  | returned delivery => exact nextDue_saves h _
  | thrown error =>
      cases h
      exact ⟨rfl, trivial⟩

theorem recalls_put {event : WebhookEvent} {data : Payload} {tasks : List (SubscriptionId × Task)}
    {key : SubscriptionId} {task task' : Task} (htask : (key, task) ∈ tasks)
    (hsame : SameSecret task.subscription task'.subscription) :
    Recalls store (.fanOut event data now tasks)
      (.fanOut event data now (Table.put Prod.fst tasks (key, task'))) := by
  intro e' he'
  rcases List.mem_map.1 he' with ⟨entry, hentry, rfl⟩
  rcases Table.mem_put hentry with rfl | ⟨hold, _⟩
  · exact Or.inl ⟨task.subscription, List.mem_map_of_mem htask, hsame⟩
  · exact Or.inl ⟨entry.2.subscription, List.mem_map_of_mem hold, .refl _⟩

theorem recalls_drop {event : WebhookEvent} {data : Payload} (tasks : List (SubscriptionId × Task))
    (key : SubscriptionId) :
    Recalls store (.fanOut event data now tasks)
      (.fanOut event data now (Table.drop Prod.fst tasks key)) := by
  intro e' he'
  rcases List.mem_map.1 he' with ⟨entry, hentry, rfl⟩
  exact Or.inl ⟨entry.2.subscription, List.mem_map_of_mem (List.mem_of_mem_filter hentry), .refl _⟩

theorem recalls_interested {p : Process} (event : WebhookEvent) (data : Payload) :
    Recalls store p (.fanOut event data now (interested store event)) := by
  intro e' he'
  rcases List.mem_map.1 he' with ⟨entry, hentry, rfl⟩
  rcases List.mem_map.1 hentry with ⟨subscription, hsubscription, rfl⟩
  exact Or.inr (List.mem_of_mem_filter (List.mem_of_mem_filter hsubscription))

/-- The calls that deliver save nothing but the subscription of an endpoint that is gone. -/
theorem resume_saves {p : Process} {input : Input} {flow : Flow Process Answer}
    (h : resume cfg p input store = some (store', flow)) :
    store'.subscriptions = saved store.subscriptions (p.pausing input) ∧
      flow.Awaits (Recalls store p) := by
  cases p with
  | findActive event data now =>
      simp only [resume] at h
      split at h
      · cases h
        exact ⟨rfl, fanOut_recalls (recalls_interested event data)⟩
      · cases h
        exact ⟨rfl, trivial⟩
      · cases h
  | fanOut event data now tasks =>
      simp only [resume] at h
      split at h
      · cases h
      · rename_i key hkey
        split at h
        · cases h
        · rename_i found task hlookup
          have hfound : found = key := Table.key_of_lookup hlookup
          subst hfound
          -- only the task that is named takes a step
          have hpausing : (Process.fanOut event data now tasks).pausing input =
              task.pausing input.reply := by
            simp [Process.pausing, hkey, hlookup]
          rw [hpausing]
          split at h
          · rename_i hstep
            cases h
            have hsaves := taskStep_saves hstep
            exact ⟨hsaves.1,
              fanOut_recalls (recalls_put (Table.mem_of_lookup hlookup) (hsaves.2 _ rfl))⟩
          · rename_i hstep
            cases h
            exact ⟨(taskStep_saves hstep).1, fanOut_recalls (recalls_drop tasks found)⟩
          · cases h
  | findDueDeliveries now =>
      simp only [resume] at h
      split at h
      · exact nextDue_saves (Option.some.inj h) _
      · cases h
        exact ⟨rfl, trivial⟩
      · cases h
  | findSubscription tick delivery =>
      simp only [resume] at h
      split at h
      · split at h
        · rename_i subscription hfind
          split at h
          · cases h
            refine ⟨rfl, ?_⟩
            intro e' he'
            rw [List.mem_singleton.1 he']
            exact Or.inr (Table.mem_of_lookup hfind)
          · cases h
            exact ⟨rfl, fun _ he' => absurd he' List.not_mem_nil⟩
        · cases h
          exact ⟨rfl, fun _ he' => absurd he' List.not_mem_nil⟩
      · cases h
        exact ⟨rfl, trivial⟩
      · cases h
  | giveUp tick delivery =>
      simp only [resume] at h
      split at h
      · exact nextDue_saves (Option.some.inj h) _
      · cases h
        exact ⟨rfl, trivial⟩
      · cases h
  | redeliver tick a =>
      simp only [resume] at h
      split at h
      · rename_i hstep
        have hsaves := deliverStep_saves hstep
        rcases redeliverTurn_saves (Option.some.inj h) hsaves.2 with ⟨hsubscriptions, hrecalls⟩
        exact ⟨hsubscriptions.trans hsaves.1, hrecalls⟩
      · cases h

end Saves

end Webhooks
end PaymentRail
