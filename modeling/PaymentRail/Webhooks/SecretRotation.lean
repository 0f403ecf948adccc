import PaymentRail.Webhooks.WebhooksService

/-!
# SecretRotation — operator actions on subscriptions among deliveries

This module embeds `create`, `remove` and `rotateSecret` of `webhooks/webhooks.service.ts` next to
the calls that deliver: `emit` and `processDue`, and `redeliver` as a call of its own, as another
instance may make it.  All of them may be interleaved at every await.

`save` writes the columns of the entity that differ from the row, and inserts the row when its id is
not stored: the row is the entity afterwards.  The entity was read before, by `deliver` even before a
request was made and answered, so what is written back may be out of date.
-/

namespace PaymentRail
namespace Webhooks
namespace SecretRotation

open Machine Collections

/-! ## The store -/

/-- The store of the service, with a history of what operators were told. -/
structure Managed where
  webhooks : Store
  /-- The secret that `rotateSecret` has returned last, for each subscription. -/
  rotated : List (SubscriptionId × String)
  /-- The subscriptions that `remove` has deleted. -/
  removed : List SubscriptionId

namespace Managed

def empty : Managed where
  webhooks := .boot []
  rotated := []
  removed := []

def find (s : Managed) (id : SubscriptionId) : Option WebhookSubscription :=
  s.webhooks.findSubscription id

def save (s : Managed) (entity : WebhookSubscription) : Managed :=
  { s with webhooks := s.webhooks.saveSubscription entity }

def delete (s : Managed) (id : SubscriptionId) : Managed :=
  { s with
    webhooks :=
      { s.webhooks with
        subscriptions := Table.drop WebhookSubscription.id s.webhooks.subscriptions id } }

/-- `rotateSecret` returns. -/
def recordRotated (s : Managed) (id : SubscriptionId) (secret : String) : Managed :=
  { s with rotated := Table.put Prod.fst s.rotated (id, secret) }

/-- `remove` returns. -/
def recordRemoved (s : Managed) (id : SubscriptionId) : Managed :=
  { s with removed := id :: s.removed }

/-- The secret returned last. -/
def lastRotated (s : Managed) (id : SubscriptionId) : Option String :=
  (Table.lookup Prod.fst s.rotated id).map Prod.snd

end Managed

/-! ## Calls -/

inductive Request where
  | webhook (request : Webhooks.Request)
  | redeliver (delivery : WebhookDelivery)
  | rotateSecret (id : SubscriptionId)
  | remove (id : SubscriptionId)
  deriving DecidableEq, Repr

inductive Process where
  | webhook (p : Webhooks.Process)
  /-- `redeliver` reading the subscription. -/
  | findSubscription (delivery : WebhookDelivery) (now : Time)
  /-- `redeliver` saving a delivery it has given up. -/
  | giveUp (delivery : WebhookDelivery)
  | redeliver (now : Time) (attempt : Attempt)
  /-- `rotateSecret` reading the subscription. -/
  | findOne (id : SubscriptionId)
  /-- `rotateSecret` saving the subscription, which has the new secret. -/
  | saveRotated (entity : WebhookSubscription)
  /-- `remove` -/
  | delete (id : SubscriptionId)
  deriving DecidableEq, Repr

inductive Signal where
  | webhook (input : Input)
  | reply (reply : Reply)
  /-- The row is read; `randomBytes` gives `secret` when it is asked. -/
  | read (secret : String)
  deriving DecidableEq, Repr

inductive Answer where
  | webhook (a : Webhooks.Answer)
  | redelivered (delivery : WebhookDelivery)
  | rotated (subscription : WebhookSubscription)
  | removed
  | notFound (message : String)
  | threw (error : String)
  deriving DecidableEq, Repr

inductive Event where
  | create (subscription : WebhookSubscription)
  | elapse (ms : Time)
  deriving DecidableEq, Repr

def lift : Flow Webhooks.Process Webhooks.Answer → Flow Process Answer
  | .await p => .await (.webhook p)
  | .answer a => .answer (.webhook a)

def notFound (id : SubscriptionId) : Answer :=
  .notFound ("Webhook subscription " ++ toString id ++ " not found")

def start : Request → Managed → Managed × Flow Process Answer
  | .webhook request, s =>
      ({ s with webhooks := (Webhooks.start request s.webhooks).1 },
        lift (Webhooks.start request s.webhooks).2)
  | .redeliver delivery, s => (s, .await (.findSubscription delivery s.webhooks.clock))
  | .rotateSecret id, s => (s, .await (.findOne id))
  | .remove id, s => (s, .await (.delete id))

/-- `redeliver` once the subscription is read. -/
def redeliverFound (cfg : Config) (delivery : WebhookDelivery) (now : Time) (s : Managed) :
    Option WebhookSubscription → Managed × Process
  | some subscription =>
      if subscription.active = true then
        let sent := send cfg now delivery subscription s.webhooks
        ({ s with webhooks := sent.1 }, .redeliver now sent.2)
      else
        (s, .giveUp (abandon delivery))
  | none => (s, .giveUp (abandon delivery))

/-- `redeliver` after a step of `deliver`. -/
def redeliverTurn (now : Time) : Turn → Flow Process Answer
  | .await attempt => .await (.redeliver now attempt)
  | .returned delivery => .answer (.redelivered delivery)
  | .thrown error => .answer (.threw error)

def resume (cfg : Config) : Process → Signal → Managed → Option (Managed × Flow Process Answer)
  | .webhook p, .webhook input, s =>
      (Webhooks.resume cfg p input s.webhooks).map fun next =>
        ({ s with webhooks := next.1 }, lift next.2)
  | .findSubscription delivery now, .reply .done, s =>
      let next := redeliverFound cfg delivery now s (s.find delivery.subscriptionId)
      some (next.1, .await next.2)
  | .giveUp delivery, .reply .done, s =>
      some ({ s with webhooks := s.webhooks.saveDelivery delivery }, .answer (.redelivered delivery))
  | .redeliver now attempt, .reply reply, s =>
      (deliverStep cfg now attempt reply s.webhooks).map fun next =>
        ({ s with webhooks := next.1 }, redeliverTurn now next.2)
  | .findOne id, .read secret, s =>
      match s.find id with
      | none => some (s, .answer (notFound id))
      | some subscription => some (s, .await (.saveRotated { subscription with secret }))
  | .saveRotated entity, .reply .done, s =>
      some ((s.save entity).recordRotated entity.id entity.secret, .answer (.rotated entity))
  | .delete id, .reply .done, s =>
      match s.find id with
      | none => some (s, .answer (notFound id))
      | some _ => some ((s.delete id).recordRemoved id, .answer .removed)
  -- a storage operation fails before anything is written
  | .findSubscription _ _, .reply (.failed error), s => some (s, .answer (.threw error))
  | .giveUp _, .reply (.failed error), s => some (s, .answer (.threw error))
  | .findOne _, .reply (.failed error), s => some (s, .answer (.threw error))
  | .saveRotated _, .reply (.failed error), s => some (s, .answer (.threw error))
  | .delete _, .reply (.failed error), s => some (s, .answer (.threw error))
  | _, _, _ => none

def external : Event → Managed → Option Managed
  | .create subscription, s =>
      -- the id is generated, and is never that of a subscription there has been
      if s.find subscription.id = none ∧ subscription.id ∉ s.removed then some (s.save subscription)
      else none
  | .elapse ms, s =>
      some { s with webhooks := { s.webhooks with clock := s.webhooks.clock + ms } }

def service (cfg : Config) : Service Managed Request Process Signal Answer Event where
  start := start
  resume := fun _ => resume cfg
  external := external

abbrev State := Calls Managed Process Answer

end SecretRotation
end Webhooks
end PaymentRail
