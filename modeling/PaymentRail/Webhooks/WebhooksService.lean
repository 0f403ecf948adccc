import PaymentRail.Collections.Arrange
import PaymentRail.Machine.Calls
import PaymentRail.Strings.CodeUnits

/-!
# WebhooksService — event fan-out and the retry queue of one instance

This module embeds `emit`, `findDueDeliveries`, `redeliver` and `deliver` of
`webhooks/webhooks.service.ts` and `processDue` of `webhooks/webhook-retry.service.ts` as a
`Service`.  A call of `emit` or `processDue` runs from one await to the next; a reply says how the
wait ended: the storage operation was done or failed, the subscriber answered or did not.  A storage
operation that fails has not been applied.

`emit` sends to all interested subscriptions at once, so its process holds one task for each of them
and a reply names the task.  Where a task fails, `Promise.all` answers the caller of `emit` at once
and the other tasks go on; here the call ends when the last of them has come to an end.
-/

namespace PaymentRail
namespace Webhooks

open Machine Collections

/-! ## Rows -/

abbrev SubscriptionId := Nat

abbrev DeliveryId := Nat

/-- Milliseconds. -/
abbrev Time := Nat

inductive WebhookEvent where
  | escrowOpened
  | escrowClosed
  | escrowReleased
  | escrowRefunded
  | settlementSettled
  | settlementFailed
  deriving DecidableEq, Repr

def WebhookEvent.name : WebhookEvent → String
  | .escrowOpened => "escrow.opened"
  | .escrowClosed => "escrow.closed"
  | .escrowReleased => "escrow.released"
  | .escrowRefunded => "escrow.refunded"
  | .settlementSettled => "settlement.settled"
  | .settlementFailed => "settlement.failed"

/-- The JSON of an event's data, which is passed on as it is. -/
abbrev Payload := String

structure WebhookSubscription where
  id : SubscriptionId
  url : String
  events : List WebhookEvent
  secret : String
  active : Bool
  deriving DecidableEq, Repr

inductive WebhookDeliveryStatus where
  | pending
  | delivered
  /-- Failed and waiting for the next attempt at `nextAttemptAt`. -/
  | failed
  /-- Failed for good. -/
  | exhausted
  deriving DecidableEq, Repr

structure WebhookDelivery where
  id : DeliveryId
  subscriptionId : SubscriptionId
  event : WebhookEvent
  payload : Payload
  status : WebhookDeliveryStatus
  attempts : Nat
  responseStatus : Option Nat
  lastError : Option String
  nextAttemptAt : Option Time
  createdAt : Time
  deliveredAt : Option Time
  deriving DecidableEq, Repr

structure WebhookEnvelope where
  id : DeliveryId
  event : WebhookEvent
  createdAt : Time
  data : Payload
  deriving DecidableEq, Repr

/-- A request made to a subscriber.  `subscriptionId` is the one of its delivery, of which `attempt`
counts the requests, `now` is the time its call was made at and `sentAt` the time it was sent at. -/
structure Post where
  url : String
  subscriptionId : SubscriptionId
  envelope : WebhookEnvelope
  headers : List (String × String)
  attempt : Nat
  now : Time
  sentAt : Time
  deriving DecidableEq, Repr

structure Store where
  subscriptions : List WebhookSubscription
  deliveries : List WebhookDelivery
  /-- `WebhookRetryService.running` -/
  running : Bool
  clock : Time
  /-- What the subscribers were sent, the latest first. -/
  posts : List Post

namespace Store

/-- An instance that has sent nothing yet. -/
def boot (subscriptions : List WebhookSubscription) : Store where
  subscriptions := subscriptions
  deliveries := []
  running := false
  clock := 0
  posts := []

def findSubscription (store : Store) (id : SubscriptionId) : Option WebhookSubscription :=
  Table.lookup WebhookSubscription.id store.subscriptions id

def findDelivery (store : Store) (id : DeliveryId) : Option WebhookDelivery :=
  Table.lookup WebhookDelivery.id store.deliveries id

def saveSubscription (store : Store) (entity : WebhookSubscription) : Store :=
  { store with subscriptions := Table.put WebhookSubscription.id store.subscriptions entity }

def saveDelivery (store : Store) (entity : WebhookDelivery) : Store :=
  { store with deliveries := Table.put WebhookDelivery.id store.deliveries entity }

/-- How often a delivery was sent. -/
def posted (store : Store) (id : DeliveryId) : Nat :=
  store.posts.countP fun post => post.envelope.id = id

end Store

structure Config where
  maxAttempts : Nat
  baseDelayMs : Nat
  maxDelayMs : Nat
  batchSize : Nat
  /-- `computeSignature` over the timestamp and the body. -/
  computeSignature : String → Nat → WebhookEnvelope → String

/-- Delay before the next attempt: base, twice the base and so on, up to the maximum. -/
def Config.backoffMs (cfg : Config) (attempts : Nat) : Nat :=
  min (cfg.baseDelayMs * 2 ^ min (attempts - 1) 30) cfg.maxDelayMs

def httpGone : Nat := 410

/-! ## One attempt -/

/-- The await an attempt is at. -/
inductive Stage where
  | post
  /-- Pausing the subscription of an endpoint that is gone. -/
  | saveSubscription
  | saveDelivery
  deriving DecidableEq, Repr

/-- `deliver` at an await, with the entities it has in memory. -/
structure Attempt where
  delivery : WebhookDelivery
  subscription : WebhookSubscription
  stage : Stage
  deriving DecidableEq, Repr

inductive Reply where
  | done
  /-- The storage operation has failed. -/
  | failed (error : String)
  /-- The row is inserted under a new id. -/
  | inserted (id : DeliveryId)
  /-- The subscriber has answered. -/
  | answered (status : Nat)
  /-- The request was never answered: a timeout or a connection error. -/
  | unanswered (error : String)
  deriving DecidableEq, Repr

/-- How an attempt goes on. -/
inductive Turn where
  | await (attempt : Attempt)
  | returned (delivery : WebhookDelivery)
  | thrown (error : String)

def envelopeOf (delivery : WebhookDelivery) : WebhookEnvelope where
  id := delivery.id
  event := delivery.event
  createdAt := delivery.createdAt
  data := delivery.payload

/-- Signed at send time. -/
def buildHeaders (cfg : Config) (clock : Time) (delivery : WebhookDelivery)
    (subscription : WebhookSubscription) : List (String × String) :=
  let timestamp := clock / 1000
  [("X-Prom-Signature", "t=" ++ toString timestamp ++ ",v1=" ++
      cfg.computeSignature subscription.secret timestamp (envelopeOf delivery)),
    ("Content-Type", "application/json"),
    ("User-Agent", "a2a-payment-rail-webhooks/1"),
    ("X-Prom-Event", delivery.event.name),
    ("X-Prom-Delivery", toString delivery.id)]

/-- `deliver` up to its request. -/
def send (cfg : Config) (now : Time) (delivery : WebhookDelivery)
    (subscription : WebhookSubscription) (store : Store) : Store × Attempt :=
  let entity := { delivery with attempts := delivery.attempts + 1 }
  let post : Post :=
    { url := subscription.url, subscriptionId := delivery.subscriptionId
      envelope := envelopeOf delivery
      headers := buildHeaders cfg store.clock delivery subscription
      attempt := entity.attempts, now, sentAt := store.clock }
  ({ store with posts := post :: store.posts }, ⟨entity, subscription, .post⟩)

/-- What an answer says about the delivery. -/
def recordAnswer (now : Time) (delivery : WebhookDelivery) (status : Nat) : WebhookDelivery :=
  if 200 ≤ status ∧ status < 300 then
    { delivery with
      responseStatus := some status, status := .delivered, deliveredAt := some now
      lastError := none }
  else
    { delivery with
      responseStatus := some status, status := .failed
      lastError := some ("subscriber answered " ++ toString status) }

/-- The catch block of `deliver`. -/
def recordError (delivery : WebhookDelivery) (error : String) : WebhookDelivery :=
  { delivery with
    status := .failed, responseStatus := none
    lastError := some (String.ofList (Strings.slicePrefix 500 error.toList)) }

/-- A failed attempt to an endpoint that will not come back. -/
def isGone (delivery : WebhookDelivery) : Bool :=
  delivery.status = .failed && delivery.responseStatus = some httpGone

/-- The rest of `deliver` on the delivery: whether and when to try again. -/
def schedule (cfg : Config) (now : Time) (delivery : WebhookDelivery) : WebhookDelivery :=
  let delivery := { delivery with nextAttemptAt := none }
  if delivery.status = .failed then
    if isGone delivery = true then { delivery with status := .exhausted }
    else if cfg.maxAttempts ≤ delivery.attempts then { delivery with status := .exhausted }
    else { delivery with nextAttemptAt := some (now + cfg.backoffMs delivery.attempts) }
  else delivery

/-- `deliver` after its request: the outcome is in memory and is saved next. -/
def settle (cfg : Config) (now : Time) (recorded : WebhookDelivery)
    (subscription : WebhookSubscription) : Attempt :=
  if isGone recorded = true then
    ⟨schedule cfg now recorded, { subscription with active := false }, .saveSubscription⟩
  else
    ⟨schedule cfg now recorded, subscription, .saveDelivery⟩

/-- `deliver` from one await to the next. -/
def deliverStep (cfg : Config) (now : Time) (a : Attempt) (reply : Reply) (store : Store) :
    Option (Store × Turn) :=
  match a.stage, reply with
  | .post, .answered status =>
      some (store, .await (settle cfg now (recordAnswer now a.delivery status) a.subscription))
  | .post, .unanswered error =>
      some (store, .await (settle cfg now (recordError a.delivery error) a.subscription))
  | .saveSubscription, .done =>
      some (store.saveSubscription a.subscription, .await { a with stage := .saveDelivery })
  | .saveDelivery, .done => some (store.saveDelivery a.delivery, .returned a.delivery)
  | .saveSubscription, .failed error => some (store, .thrown error)
  | .saveDelivery, .failed error => some (store, .thrown error)
  | _, _ => none

/-! ## Calls -/

structure WebhookRetryRunResult where
  ran : Bool
  attempted : Nat
  delivered : Nat
  exhausted : Nat
  deriving DecidableEq, Repr

/-- One delivery more, with its outcome. -/
def WebhookRetryRunResult.count (result : WebhookRetryRunResult) (updated : WebhookDelivery) :
    WebhookRetryRunResult :=
  { result with
    attempted := result.attempted + 1
    delivered := result.delivered + if updated.status = .delivered then 1 else 0
    exhausted := result.exhausted + if updated.status = .exhausted then 1 else 0 }

inductive Request where
  | emit (event : WebhookEvent) (data : Payload)
  | processDue
  deriving DecidableEq, Repr

inductive Answer where
  | emitted
  | processed (result : WebhookRetryRunResult)
  | threw (error : String)
  deriving DecidableEq, Repr

/-- The part of `emit` for one interested subscription. -/
inductive Task where
  | insert (subscription : WebhookSubscription)
  | deliver (attempt : Attempt)
  deriving DecidableEq, Repr

/-- A pass over the deliveries that are due: those left, and the result so far. -/
structure Tick where
  now : Time
  rest : List WebhookDelivery
  result : WebhookRetryRunResult
  deriving DecidableEq, Repr

/-- What a call is waiting for. -/
inductive Process where
  /-- `emit` reading the active subscriptions. -/
  | findActive (event : WebhookEvent) (data : Payload) (now : Time)
  /-- `emit` with its tasks, one for a subscription. -/
  | fanOut (event : WebhookEvent) (data : Payload) (now : Time) (tasks : List (SubscriptionId × Task))
  /-- `processDue` reading the deliveries that are due. -/
  | findDueDeliveries (now : Time)
  /-- `redeliver` reading the subscription of a delivery. -/
  | findSubscription (tick : Tick) (delivery : WebhookDelivery)
  /-- `redeliver` saving a delivery it has given up. -/
  | giveUp (tick : Tick) (delivery : WebhookDelivery)
  | redeliver (tick : Tick) (attempt : Attempt)
  deriving DecidableEq, Repr

/-- A reply to a call; the one to a task of `emit` names its subscription. -/
structure Input where
  task : Option SubscriptionId
  reply : Reply
  deriving DecidableEq, Repr

/-- What happens to the subscriptions from outside, and the passing of time. -/
inductive Event where
  | create (subscription : WebhookSubscription)
  | remove (id : SubscriptionId)
  | rotateSecret (id : SubscriptionId) (secret : String)
  | setActive (id : SubscriptionId) (active : Bool)
  | elapse (ms : Time)
  deriving DecidableEq, Repr

def isDue (now : Time) (delivery : WebhookDelivery) : Bool :=
  delivery.status = .failed && delivery.nextAttemptAt.any fun t => t ≤ now

/-- Failed deliveries whose next attempt is due, oldest first. -/
def findDueDeliveries (store : Store) (now : Time) (limit : Nat) : List WebhookDelivery :=
  (Arrange.orderBy (fun delivery => delivery.nextAttemptAt.getD 0)
    (store.deliveries.filter (isDue now))).take limit

/-- The row `emit` inserts. -/
def newDelivery (id : DeliveryId) (subscription : WebhookSubscription) (event : WebhookEvent)
    (data : Payload) (createdAt : Time) : WebhookDelivery where
  id := id
  subscriptionId := subscription.id
  event := event
  payload := data
  status := .pending
  attempts := 0
  responseStatus := none
  lastError := none
  nextAttemptAt := none
  createdAt := createdAt
  deliveredAt := none

/-- The delivery of a subscription that is gone or paused. -/
def abandon (delivery : WebhookDelivery) : WebhookDelivery :=
  { delivery with
    status := .exhausted, nextAttemptAt := none
    lastError := some "subscription is no longer active" }

/-- A call of `emit` goes on with the tasks that are left. -/
def fanOut (event : WebhookEvent) (data : Payload) (now : Time) :
    List (SubscriptionId × Task) → Flow Process Answer
  | [] => .answer .emitted
  | tasks => .await (.fanOut event data now tasks)

/-- The tasks of the subscriptions that asked for the event. -/
def interested (store : Store) (event : WebhookEvent) : List (SubscriptionId × Task) :=
  let active := store.subscriptions.filter fun subscription => subscription.active
  (active.filter fun subscription => subscription.events.contains event).map fun subscription =>
    (subscription.id, .insert subscription)

/-- The next delivery of a tick, or its end, where `finally` runs. -/
def nextDue (tick : Tick) (store : Store) : Store × Flow Process Answer :=
  match tick.rest with
  | [] => ({ store with running := false }, .answer (.processed tick.result))
  | delivery :: rest => (store, .await (.findSubscription { tick with rest } delivery))

/-- An exception leaves the loop of a tick, and `finally` runs. -/
def leave (error : String) (store : Store) : Store × Flow Process Answer :=
  ({ store with running := false }, .answer (.threw error))

def start : Request → Store → Store × Flow Process Answer
  | .emit event data, store => (store, .await (.findActive event data store.clock))
  | .processDue, store =>
      if store.running = true then (store, .answer (.processed ⟨false, 0, 0, 0⟩))
      else ({ store with running := true }, .await (.findDueDeliveries store.clock))

/-- A task of `emit` from one await to the next; `none` where it has come to an end. -/
def taskStep (cfg : Config) (event : WebhookEvent) (data : Payload) (now : Time) (task : Task)
    (reply : Reply) (store : Store) : Option (Store × Option Task) :=
  match task with
  | .insert subscription =>
      match reply with
      | .inserted id =>
          -- the id is generated by the database
          if store.findDelivery id = none then
            let delivery := newDelivery id subscription event data store.clock
            let sent := send cfg now delivery subscription (store.saveDelivery delivery)
            some (sent.1, some (.deliver sent.2))
          else
            none
      | .failed _ => some (store, none)
      | _ => none
  | .deliver attempt =>
      match deliverStep cfg now attempt reply store with
      | some (store, .await attempt) => some (store, some (.deliver attempt))
      | some (store, .returned _) => some (store, none)
      -- the error is caught by `emit` and logged
      | some (store, .thrown _) => some (store, none)
      | none => none

/-- A tick goes on after `redeliver` has taken a step. -/
def redeliverTurn (tick : Tick) (store : Store) : Turn → Store × Flow Process Answer
  | .await attempt => (store, .await (.redeliver tick attempt))
  | .returned updated => nextDue { tick with result := tick.result.count updated } store
  | .thrown error => leave error store

def resume (cfg : Config) : Process → Input → Store → Option (Store × Flow Process Answer)
  | .findActive event data now, input, store =>
      match input.reply with
      | .done => some (store, fanOut event data now (interested store event))
      | .failed _ => some (store, .answer .emitted)
      | _ => none
  | .fanOut event data now tasks, input, store =>
      match input.task with
      | none => none
      | some key =>
          match Table.lookup Prod.fst tasks key with
          | none => none
          | some (_, task) =>
              match taskStep cfg event data now task input.reply store with
              | some (store, some task) =>
                  some (store, fanOut event data now (Table.put Prod.fst tasks (key, task)))
              | some (store, none) =>
                  some (store, fanOut event data now (Table.drop Prod.fst tasks key))
              | none => none
  | .findDueDeliveries now, input, store =>
      match input.reply with
      | .done =>
          some (nextDue ⟨now, findDueDeliveries store now cfg.batchSize, ⟨true, 0, 0, 0⟩⟩ store)
      | .failed error => some (leave error store)
      | _ => none
  | .findSubscription tick delivery, input, store =>
      match input.reply with
      | .done =>
          match store.findSubscription delivery.subscriptionId with
          | some subscription =>
              if subscription.active = true then
                let sent := send cfg tick.now delivery subscription store
                some (sent.1, .await (.redeliver tick sent.2))
              else
                some (store, .await (.giveUp tick (abandon delivery)))
          | none => some (store, .await (.giveUp tick (abandon delivery)))
      | .failed error => some (leave error store)
      | _ => none
  | .giveUp tick delivery, input, store =>
      match input.reply with
      | .done => some (redeliverTurn tick (store.saveDelivery delivery) (.returned delivery))
      | .failed error => some (leave error store)
      | _ => none
  | .redeliver tick attempt, input, store =>
      match deliverStep cfg tick.now attempt input.reply store with
      | some (store, turn) => some (redeliverTurn tick store turn)
      | none => none

def external : Event → Store → Option Store
  | .create subscription, store =>
      if store.findSubscription subscription.id = none then
        some (store.saveSubscription subscription)
      else
        none
  | .remove id, store =>
      some { store with subscriptions := Table.drop WebhookSubscription.id store.subscriptions id }
  | .rotateSecret id secret, store =>
      (store.findSubscription id).map fun subscription =>
        store.saveSubscription { subscription with secret }
  | .setActive id active, store =>
      (store.findSubscription id).map fun subscription =>
        store.saveSubscription { subscription with active }
  | .elapse ms, store => some { store with clock := store.clock + ms }

/-- The calls of `emit` and `processDue` on one instance. -/
def service (cfg : Config) : Service Store Request Process Input Answer Event where
  start := start
  resume := fun _ => resume cfg
  external := external

end Webhooks
end PaymentRail
