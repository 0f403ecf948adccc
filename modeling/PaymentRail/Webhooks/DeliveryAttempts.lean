import PaymentRail.Webhooks.Transitions

/-!
# DeliveryAttempts — the states of a delivery over whole runs

As long as storage works, a delivery is in the hands of one call at a time: a pending row belongs to
the task of `emit` that has inserted it, and a failed row to the tick that has found it due, of which
there is one at most.  So the requests of a row that nobody holds are the ones it has counted
(`Counted`), and a tick sends only rows with attempts left.

The argument is a proof outline (`deliveries_outline`).  What a request changes and what a save
changes is said once (`StoreSound.sent`, `StoreSound.saved`), and once for the calls that look on
(`Sound.sent`, `Sound.saved`).
-/

namespace PaymentRail
namespace Webhooks

open Machine Collections

variable {cfg : Config}

/-! ## Assertions -/

/-- What holds of every stored row. -/
structure RowSound (cfg : Config) (store : Store) (row : WebhookDelivery) : Prop where
  nextAttemptAt : row.nextAttemptAt ≠ none ↔ row.status = .failed
  failed : row.status = .failed → row.attempts < cfg.maxAttempts ∧
    ∃ post ∈ store.posts, post.envelope.id = row.id ∧ post.attempt = row.attempts ∧
      row.nextAttemptAt = some (post.now + cfg.backoffMs row.attempts)
  posted : store.posted row.id ≤ cfg.maxAttempts

/-- A failed row has counted its requests. -/
def CountedRow (store : Store) (row : WebhookDelivery) : Prop :=
  row.status = .failed → store.posted row.id = row.attempts

/-- So have all rows but the one in flight. -/
def Counted (store : Store) (inFlight : Option DeliveryId) : Prop :=
  ∀ row ∈ store.deliveries, some row.id ≠ inFlight → CountedRow store row

structure StoreSound (cfg : Config) (store : Store) : Prop where
  keyed : Table.Keyed WebhookDelivery.id store.deliveries
  rows : ∀ row ∈ store.deliveries, RowSound cfg store row
  unknown : ∀ id, (∀ row ∈ store.deliveries, row.id ≠ id) → store.posted id = 0
  idle : store.running = false → Counted store none

/-- An attempt whose request was sent by a call made at `now`. -/
structure InFlight (cfg : Config) (store : Store) (now : Time) (a : Attempt) : Prop where
  attempts : a.delivery.attempts ≤ cfg.maxAttempts
  posted : store.posted a.delivery.id = a.delivery.attempts
  post : ∃ post ∈ store.posts, post.envelope.id = a.delivery.id ∧
    post.attempt = a.delivery.attempts ∧ post.now = now
  outcome : a.stage ≠ .post → Outcome cfg now a.delivery

/-- An attempt of a row that was inserted by this call. -/
def FirstAttempt (cfg : Config) (store : Store) (now : Time) (a : Attempt) : Prop :=
  InFlight cfg store now a ∧
    ∃ row ∈ store.deliveries, row.id = a.delivery.id ∧ row.status = .pending

/-- The tasks of a call hold different rows. -/
def Apart (tasks : List (SubscriptionId × Task)) : Prop :=
  ∀ key key' a a', (key, Task.deliver a) ∈ tasks → (key', Task.deliver a') ∈ tasks →
    a.delivery.id = a'.delivery.id → key = key'

/-- A tick begun at `now` and the rows it has still to do. -/
structure Ticking (store : Store) (now : Time) (rows : List WebhookDelivery) : Prop where
  running : store.running = true
  begun : now ≤ store.clock
  nodup : (rows.map WebhookDelivery.id).Nodup
  due : ∀ row ∈ rows, row ∈ store.deliveries ∧ isDue now row = true

/-- What a waiting call relies on. -/
def Sound (cfg : Config) (store : Store) : Process → Prop
  | .findActive _ _ _ => True
  | .fanOut _ _ now tasks =>
      (∀ key a, (key, Task.deliver a) ∈ tasks → FirstAttempt cfg store now a) ∧ Apart tasks
  | .findDueDeliveries now => Ticking store now [] ∧ Counted store none
  | .findSubscription tick delivery =>
      Ticking store tick.now (delivery :: tick.rest) ∧ Counted store none
  | .giveUp tick delivery =>
      ∃ row, delivery = abandon row ∧ Ticking store tick.now (row :: tick.rest) ∧
        Counted store none
  | .redeliver tick a =>
      ∃ row, a.delivery.id = row.id ∧ Ticking store tick.now (row :: tick.rest) ∧
        InFlight cfg store tick.now a ∧ Counted store (some row.id)

def Process.isTick : Process → Bool
  | .findActive _ _ _ => false
  | .fanOut _ _ _ _ => false
  | _ => true

/-- The row a task holds. -/
def Task.row : Task → Option DeliveryId
  | .insert _ => none
  | .deliver a => some a.delivery.id

/-- The rows a call holds. -/
def Process.rows : Process → List DeliveryId
  | .findActive _ _ _ => []
  | .fanOut _ _ _ tasks => tasks.filterMap fun entry => entry.2.row
  | .findDueDeliveries _ => []
  | .findSubscription tick delivery => delivery.id :: tick.rest.map WebhookDelivery.id
  | .giveUp tick delivery => delivery.id :: tick.rest.map WebhookDelivery.id
  | .redeliver tick a => a.delivery.id :: tick.rest.map WebhookDelivery.id

/-- Two calls are not both ticks, and they hold different rows. -/
def Separate (p q : Process) : Prop :=
  ¬(p.isTick = true ∧ q.isTick = true) ∧ ∀ id ∈ p.rows, id ∉ q.rows

theorem Separate.symm {p q : Process} (h : Separate p q) : Separate q p :=
  ⟨fun htick => h.1 ⟨htick.2, htick.1⟩, fun id hq hp => h.2 id hp hq⟩

/-- A call goes on as a call of the same kind with fewer rows. -/
theorem Separate.mono {p q q' : Process} (h : Separate p q)
    (htick : q'.isTick = true → q.isTick = true) (hrows : ∀ id ∈ q'.rows, id ∈ q.rows) :
    Separate p q' :=
  ⟨fun hboth => h.1 ⟨hboth.1, htick hboth.2⟩, fun id hp hq => h.2 id hp (hrows id hq)⟩

/-! ## Steps that touch one row -/

/-- At most the row `d` has changed, or been sent. -/
structure Touches (d : Option DeliveryId) (store store' : Store) : Prop where
  rows : ∀ row, some row.id ≠ d → (row ∈ store'.deliveries ↔ row ∈ store.deliveries)
  posted : ∀ id, some id ≠ d → store'.posted id = store.posted id
  posts : ∀ post ∈ store.posts, post ∈ store'.posts
  clock : store.clock ≤ store'.clock

section Touches

variable {store store' store'' : Store} {d : Option DeliveryId}

theorem Touches.trans (h : Touches d store store') (h' : Touches d store' store'') :
    Touches d store store'' where
  rows := fun row hrow => (h'.rows row hrow).trans (h.rows row hrow)
  posted := fun id hid => (h'.posted id hid).trans (h.posted id hid)
  posts := fun post hpost => h'.posts post (h.posts post hpost)
  clock := Nat.le_trans h.clock h'.clock

theorem touches_none (hdeliveries : store'.deliveries = store.deliveries)
    (hposts : store'.posts = store.posts) (hclock : store.clock ≤ store'.clock) :
    Touches none store store' where
  rows := fun row _ => by rw [hdeliveries]
  posted := fun id _ => by rw [Store.posted, Store.posted, hposts]
  posts := fun post hpost => by rw [hposts]; exact hpost
  clock := hclock

theorem mem_saveDelivery {entity row : WebhookDelivery} :
    row ∈ (store.saveDelivery entity).deliveries ↔
      row = entity ∨ (row ∈ store.deliveries ∧ row.id ≠ entity.id) := by
  simp [Store.saveDelivery, Table.put]

theorem touches_saveDelivery (store : Store) (entity : WebhookDelivery) :
    Touches (some entity.id) store (store.saveDelivery entity) where
  rows := by
    intro row hrow
    have hne : row.id ≠ entity.id := fun hEq => hrow (congrArg some hEq)
    rw [mem_saveDelivery]
    constructor
    · rintro (rfl | hmem)
      · exact absurd rfl hne
      · exact hmem.1
    · exact fun hmem => Or.inr ⟨hmem, hne⟩
  posted := fun _ _ => rfl
  posts := fun _ hpost => hpost
  clock := le_refl _

theorem posted_cons {post : Post} (h : store'.posts = post :: store.posts) (id : DeliveryId) :
    store'.posted id = store.posted id + if post.envelope.id = id then 1 else 0 := by
  simp only [Store.posted, h, List.countP_cons, decide_eq_true_eq]

/-- What the first half of `deliver` does. -/
theorem sent_spec {now : Time} {delivery : WebhookDelivery} {subscription : WebhookSubscription}
    {a : Attempt} (h : Sent cfg now delivery subscription store store' a) :
    ∃ post : Post, store' = { store with posts := post :: store.posts } ∧
      a = ⟨{ delivery with attempts := delivery.attempts + 1 }, subscription, .post⟩ ∧
      post.envelope.id = delivery.id ∧ post.attempt = delivery.attempts + 1 ∧ post.now = now ∧
      post.sentAt = store.clock ∧ post.url = subscription.url := by
  cases h
  exact ⟨_, rfl, rfl, rfl, rfl, rfl, rfl, rfl⟩

theorem touches_post (store : Store) (post : Post) :
    Touches (some post.envelope.id) store { store with posts := post :: store.posts } where
  rows := fun _ _ => Iff.rfl
  posted := by
    intro id hid
    have hne : post.envelope.id ≠ id := fun hEq => hid (congrArg some hEq.symm)
    rw [posted_cons rfl, if_neg hne, Nat.add_zero]
  posts := fun _ hpost => List.mem_cons_of_mem post hpost
  clock := le_refl _

variable (h : Touches d store store')

include h

theorem Touches.rowSound {row : WebhookDelivery} (hd : some row.id ≠ d)
    (hrow : RowSound cfg store row) : RowSound cfg store' row := by
  refine ⟨hrow.nextAttemptAt, ?_, ?_⟩
  · intro hfailed
    obtain ⟨hlt, post, hpost, hspec⟩ := hrow.failed hfailed
    exact ⟨hlt, post, h.posts post hpost, hspec⟩
  · rw [h.posted row.id hd]
    exact hrow.posted

theorem Touches.inFlight {now : Time} {a : Attempt} (hd : some a.delivery.id ≠ d)
    (ha : InFlight cfg store now a) : InFlight cfg store' now a := by
  obtain ⟨post, hpost, hspec⟩ := ha.post
  refine ⟨ha.attempts, ?_, ⟨post, h.posts post hpost, hspec⟩, ha.outcome⟩
  rw [h.posted a.delivery.id hd]
  exact ha.posted

theorem Touches.firstAttempt {now : Time} {a : Attempt} (hd : some a.delivery.id ≠ d)
    (ha : FirstAttempt cfg store now a) : FirstAttempt cfg store' now a := by
  obtain ⟨hflight, row, hrow, hid, hpending⟩ := ha
  refine ⟨h.inFlight hd hflight, row, ?_, hid, hpending⟩
  exact (h.rows row (hid ▸ hd)).2 hrow

theorem Touches.counted {inFlight : Option DeliveryId} (hc : Counted store inFlight)
    (hd : ∀ row ∈ store'.deliveries, some row.id = d → CountedRow store' row) :
    Counted store' inFlight := by
  intro row hrow hne
  by_cases hid : some row.id = d
  · exact hd row hrow hid
  · intro hfailed
    rw [h.posted row.id hid]
    exact hc row ((h.rows row hid).1 hrow) hne hfailed

theorem Touches.ticking {now : Time} {rows : List WebhookDelivery}
    (hd : ∀ id ∈ rows.map WebhookDelivery.id, some id ≠ d)
    (hrunning : store'.running = store.running) (ht : Ticking store now rows) :
    Ticking store' now rows := by
  refine ⟨hrunning.trans ht.running, Nat.le_trans ht.begun h.clock, ht.nodup, ?_⟩
  intro row hrow
  have hid : some row.id ≠ d := hd row.id (List.mem_map.2 ⟨row, hrow, rfl⟩)
  exact ⟨(h.rows row hid).2 (ht.due row hrow).1, (ht.due row hrow).2⟩

/-- The calls that do not hold the row do not notice. -/
theorem Touches.sound {q : Process} (hd : ∀ id ∈ q.rows, some id ≠ d)
    (hrunning : q.isTick = true → store'.running = store.running)
    (hcounted : q.isTick = true →
      ∀ row ∈ store'.deliveries, some row.id = d → CountedRow store' row)
    (hq : Sound cfg store q) : Sound cfg store' q := by
  cases q with
  | findActive event data now => trivial
  | fanOut event data now tasks =>
      refine ⟨?_, hq.2⟩
      intro key a htask
      have hrow : a.delivery.id ∈ (Process.fanOut event data now tasks).rows :=
        List.mem_filterMap.2 ⟨(key, .deliver a), htask, rfl⟩
      exact h.firstAttempt (hd _ hrow) (hq.1 key a htask)
  | findDueDeliveries now =>
      exact ⟨h.ticking nofun (hrunning rfl) hq.1, h.counted hq.2 (hcounted rfl)⟩
  | findSubscription tick delivery =>
      exact ⟨h.ticking hd (hrunning rfl) hq.1, h.counted hq.2 (hcounted rfl)⟩
  | giveUp tick delivery =>
      obtain ⟨row, rfl, htick, hc⟩ := hq
      exact ⟨row, rfl, h.ticking hd (hrunning rfl) htick, h.counted hc (hcounted rfl)⟩
  | redeliver tick a =>
      obtain ⟨row, hid, htick, hflight, hc⟩ := hq
      have hrows : ∀ id ∈ (row :: tick.rest).map WebhookDelivery.id, some id ≠ d := by
        rw [List.map_cons, ← hid]
        exact hd
      exact ⟨row, hid, h.ticking hrows (hrunning rfl) htick,
        h.inFlight (hd _ List.mem_cons_self) hflight, h.counted hc (hcounted rfl)⟩

theorem Touches.storeSound (hs : StoreSound cfg store)
    (hkeyed : Table.Keyed WebhookDelivery.id store'.deliveries)
    (hknown : ∀ id, some id = d → ∃ row ∈ store'.deliveries, row.id = id)
    (hrow : ∀ row ∈ store'.deliveries, some row.id = d → RowSound cfg store' row)
    (hidle : store'.running = false → Counted store' none) : StoreSound cfg store' := by
  refine ⟨hkeyed, ?_, ?_, hidle⟩
  · intro row hmem
    by_cases hid : some row.id = d
    · exact hrow row hmem hid
    · exact h.rowSound hid (hs.rows row ((h.rows row hid).1 hmem))
  · intro id hnone
    have hid : some id ≠ d := by
      intro hEq
      rcases hknown id hEq with ⟨row, hmem, hrowId⟩
      exact hnone row hmem hrowId
    rw [h.posted id hid]
    refine hs.unknown id ?_
    intro row hmem hEq
    exact hnone row ((h.rows row (hEq ▸ hid)).2 hmem) hEq

end Touches

section Quiet

variable {store store' : Store}

/-- Nothing is written and nothing is sent. -/
theorem StoreSound.quiet (hs : StoreSound cfg store)
    (hdeliveries : store'.deliveries = store.deliveries) (hposts : store'.posts = store.posts)
    (hclock : store.clock ≤ store'.clock)
    (hidle : store'.running = false → Counted store none) : StoreSound cfg store' := by
  have htouch := touches_none hdeliveries hposts hclock
  refine htouch.storeSound hs (hdeliveries ▸ hs.keyed) ?_ ?_ ?_
  · exact fun id hid => absurd hid (Option.some_ne_none id)
  · exact fun row _ hid => absurd hid (Option.some_ne_none row.id)
  · exact fun h => htouch.counted (hidle h) fun row _ hid => absurd hid (Option.some_ne_none row.id)

theorem Sound.quiet {q : Process} (hq : Sound cfg store q)
    (hdeliveries : store'.deliveries = store.deliveries) (hposts : store'.posts = store.posts)
    (hclock : store.clock ≤ store'.clock)
    (hrunning : q.isTick = true → store'.running = store.running) : Sound cfg store' q :=
  (touches_none hdeliveries hposts hclock).sound (fun _ _ => nofun) hrunning
    (fun _ _ _ => nofun) hq

end Quiet

/-! ## What a call holds -/

section Holds

variable {store : Store}

theorem Sound.running {q : Process} (hq : Sound cfg store q) (htick : q.isTick = true) :
    store.running = true := by
  cases q with
  | findActive event data now => cases htick
  | fanOut event data now tasks => cases htick
  | findDueDeliveries now => exact hq.1.running
  | findSubscription tick delivery => exact hq.1.running
  | giveUp tick delivery =>
      obtain ⟨row, _, ht, _⟩ := hq
      exact ht.running
  | redeliver tick a =>
      obtain ⟨row, _, ht, _⟩ := hq
      exact ht.running

/-- The rows of `emit` are pending. -/
theorem Sound.pending {q : Process} (hq : Sound cfg store q) (htick : q.isTick ≠ true)
    {id : DeliveryId} (hid : id ∈ q.rows) :
    ∃ row ∈ store.deliveries, row.id = id ∧ row.status = .pending := by
  cases q with
  | findActive event data now => cases hid
  | fanOut event data now tasks =>
      obtain ⟨⟨key, task⟩, htask, hrow⟩ := List.mem_filterMap.1 hid
      cases task with
      | insert subscription => cases hrow
      | deliver a =>
          cases hrow
          exact (hq.1 key a htask).2
  | _ => exact absurd rfl htick

theorem Ticking.failed {now : Time} {rows : List WebhookDelivery} (h : Ticking store now rows)
    {row : WebhookDelivery} (hrow : row ∈ rows) : row.status = .failed := by
  have hdue := (h.due row hrow).2
  simp only [isDue, Bool.and_eq_true, decide_eq_true_eq] at hdue
  exact hdue.1

/-- The rows of a tick are stored. -/
theorem Ticking.stored {now : Time} {rows : List WebhookDelivery} (h : Ticking store now rows)
    {id : DeliveryId} (hid : id ∈ rows.map WebhookDelivery.id) :
    ∃ row ∈ store.deliveries, row.id = id := by
  rcases List.mem_map.1 hid with ⟨row, hrow, hEq⟩
  exact ⟨row, (h.due row hrow).1, hEq⟩

theorem Sound.stored {q : Process} (hq : Sound cfg store q) {id : DeliveryId} (hid : id ∈ q.rows) :
    ∃ row ∈ store.deliveries, row.id = id := by
  cases q with
  | findActive event data now => cases hid
  | fanOut event data now tasks =>
      obtain ⟨row, hrow, hEq, _⟩ := hq.pending nofun hid
      exact ⟨row, hrow, hEq⟩
  | findDueDeliveries now => cases hid
  | findSubscription tick delivery => exact hq.1.stored hid
  | giveUp tick delivery =>
      obtain ⟨row, rfl, ht, _⟩ := hq
      exact ht.stored hid
  | redeliver tick a =>
      obtain ⟨row, hEq, ht, _⟩ := hq
      refine ht.stored ?_
      rw [List.map_cons, ← hEq]
      exact hid

end Holds

/-! ## One attempt -/

section Attempts

variable {store store' : Store} {now : Time} {a a' : Attempt} {reply : Reply}

/-- Up to its last save an attempt keeps its delivery in memory. -/
structure Continues (cfg : Config) (now : Time) (store store' : Store) (a a' : Attempt) : Prop where
  deliveries : store'.deliveries = store.deliveries
  posts : store'.posts = store.posts
  running : store'.running = store.running
  clock : store'.clock = store.clock
  same : SameAttempt a.delivery a'.delivery
  inFlight : InFlight cfg store' now a'

theorem continues_of_delivers (h : Delivers cfg now store a reply store' (.await a'))
    (ha : InFlight cfg store now a) : Continues cfg now store store' a a' := by
  cases h with
  | settled hstage hreply hsame houtcome hnext =>
      obtain ⟨post, hpost, hid, hattempt, hnow⟩ := ha.post
      refine ⟨rfl, rfl, rfl, rfl, hsame, ?_, ?_, ⟨post, hpost, ?_, ?_, hnow⟩, fun _ => houtcome⟩
      · rw [hsame.attempts]
        exact ha.attempts
      · rw [hsame.id, hsame.attempts]
        exact ha.posted
      · rw [hsame.id]
        exact hid
      · rw [hsame.attempts]
        exact hattempt
  | paused hstage =>
      have houtcome : Outcome cfg now a.delivery := ha.outcome (by rw [hstage]; nofun)
      exact ⟨rfl, rfl, rfl, rfl, ⟨rfl, rfl⟩, ha.attempts, ha.posted, ha.post, fun _ => houtcome⟩

theorem returned_of_delivers {delivery : WebhookDelivery}
    (h : Delivers cfg now store a reply store' (.returned delivery)) :
    delivery = a.delivery ∧ store' = store.saveDelivery a.delivery ∧ a.stage ≠ .post := by
  cases h with
  | saved hstage => exact ⟨rfl, rfl, by rw [hstage]; nofun⟩

theorem eq_of_mem_saveDelivery {entity row : WebhookDelivery}
    (h : row ∈ (store.saveDelivery entity).deliveries) (hid : row.id = entity.id) : row = entity := by
  rcases mem_saveDelivery.1 h with hEq | ⟨_, hne⟩
  · exact hEq
  · exact absurd hid hne

/-- The row an attempt leaves behind. -/
theorem InFlight.rowSound (ha : InFlight cfg store now a) (hstage : a.stage ≠ .post) :
    RowSound cfg (store.saveDelivery a.delivery) a.delivery := by
  have houtcome := ha.outcome hstage
  refine ⟨houtcome.nextAttemptAt, ?_, Nat.le_trans (Nat.le_of_eq ha.posted) ha.attempts⟩
  intro hfailed
  obtain ⟨hlt, hnext⟩ := houtcome.failed hfailed
  obtain ⟨post, hpost, hid, hattempt, hnow⟩ := ha.post
  exact ⟨hlt, post, hpost, hid, hattempt, by rw [hnow]; exact hnext⟩

/-- It has counted its requests. -/
theorem InFlight.countedRow (ha : InFlight cfg store now a) :
    ∀ row ∈ (store.saveDelivery a.delivery).deliveries, some row.id = some a.delivery.id →
      CountedRow (store.saveDelivery a.delivery) row := by
  intro row hrow hid _
  rw [eq_of_mem_saveDelivery hrow (Option.some.inj hid)]
  exact ha.posted

theorem storeSound_saveDelivery {entity : WebhookDelivery} (hs : StoreSound cfg store)
    (hentity : RowSound cfg (store.saveDelivery entity) entity)
    (hidle : (store.saveDelivery entity).running = false →
      Counted (store.saveDelivery entity) none) : StoreSound cfg (store.saveDelivery entity) := by
  refine (touches_saveDelivery store entity).storeSound hs (Table.Keyed.put hs.keyed) ?_ ?_ hidle
  · intro id hid
    exact ⟨entity, mem_saveDelivery.2 (Or.inl rfl), (Option.some.inj hid).symm⟩
  · intro row hrow hid
    rw [eq_of_mem_saveDelivery hrow (Option.some.inj hid)]
    exact hentity

end Attempts

/-! ## The tasks of `emit` -/

section Tasks

variable {tasks : List (SubscriptionId × Task)} {key : SubscriptionId} {a : Attempt}

theorem mem_put_task {entry : SubscriptionId × Task} {task : Task}
    (h : entry ∈ Table.put Prod.fst tasks (key, task)) :
    entry = (key, task) ∨ (entry ∈ tasks ∧ entry.1 ≠ key) :=
  Table.mem_put h

theorem Apart.put (h : Apart tasks)
    (hothers : ∀ key' a', (key', Task.deliver a') ∈ tasks → key' ≠ key →
      a'.delivery.id ≠ a.delivery.id) :
    Apart (Table.put Prod.fst tasks (key, .deliver a)) := by
  intro k k' b b' hb hb' hid
  rcases mem_put_task hb with hEq | ⟨hmem, hk⟩
  · cases hEq
    rcases mem_put_task hb' with hEq' | ⟨hmem', hk'⟩
    · cases hEq'
      rfl
    · exact absurd hid.symm (hothers k' b' hmem' hk')
  · rcases mem_put_task hb' with hEq' | ⟨hmem', hk'⟩
    · cases hEq'
      exact absurd hid (hothers k b hmem hk)
    · exact h k k' b b' hmem hmem' hid

theorem Apart.drop (h : Apart tasks) : Apart (Table.drop Prod.fst tasks key) := by
  intro k k' b b' hb hb' hid
  exact h k k' b b' (Table.mem_drop.1 hb).1 (Table.mem_drop.1 hb').1 hid

theorem mem_rows_of_task {event : WebhookEvent} {data : Payload} {now : Time}
    (h : (key, Task.deliver a) ∈ tasks) :
    a.delivery.id ∈ (Process.fanOut event data now tasks).rows :=
  List.mem_filterMap.2 ⟨(key, .deliver a), h, rfl⟩

theorem rows_put {event : WebhookEvent} {data : Payload} {now : Time} {id : DeliveryId}
    (h : id ∈ (Process.fanOut event data now
      (Table.put Prod.fst tasks (key, .deliver a))).rows) :
    id = a.delivery.id ∨ id ∈ (Process.fanOut event data now tasks).rows := by
  obtain ⟨entry, hentry, hrow⟩ := List.mem_filterMap.1 h
  rcases mem_put_task hentry with rfl | ⟨hmem, _⟩
  · exact Or.inl (Option.some.inj hrow).symm
  · exact Or.inr (List.mem_filterMap.2 ⟨entry, hmem, hrow⟩)

theorem rows_drop {event : WebhookEvent} {data : Payload} {now : Time} {id : DeliveryId}
    (h : id ∈ (Process.fanOut event data now (Table.drop Prod.fst tasks key)).rows) :
    id ∈ (Process.fanOut event data now tasks).rows := by
  obtain ⟨entry, hentry, hrow⟩ := List.mem_filterMap.1 h
  exact List.mem_filterMap.2 ⟨entry, (Table.mem_drop.1 hentry).1, hrow⟩

end Tasks

/-! ## The steps of a call -/

/-- What a step of the call `p` has to establish. -/
structure Keeps (cfg : Config) (p : Process) (store store' : Store) (flow : Flow Process Answer) :
    Prop where
  state : StoreSound cfg store'
  self : flow.Awaits (Sound cfg store')
  others : ∀ q, Sound cfg store q → Separate q p → Sound cfg store' q ∧ flow.Awaits (Separate q)

section Emit

variable {store store' : Store} {event : WebhookEvent} {data : Payload} {now : Time}
  {tasks : List (SubscriptionId × Task)} {key : SubscriptionId} {a a' : Attempt} {reply : Reply}

theorem keeps_foundActive (hs : StoreSound cfg store) :
    Keeps cfg (.findActive event data now) store store
      (fanOut event data now (interested store event)) := by
  have hrows : (Process.fanOut event data now (interested store event)).rows = [] := by
    refine List.filterMap_eq_nil_iff.2 ?_
    rintro ⟨key, task⟩ hentry
    cases task with
    | insert subscription => rfl
    | deliver a => exact absurd hentry deliver_notMem_interested
  refine ⟨hs, fanOut_awaits ⟨?_, ?_⟩, ?_⟩
  · exact fun key a htask => absurd htask deliver_notMem_interested
  · exact fun key key' a a' htask => absurd htask deliver_notMem_interested
  · intro q hq hsep
    refine ⟨hq, fanOut_awaits (hsep.mono nofun ?_)⟩
    intro id hid
    rw [hrows] at hid
    cases hid

/-- A new row is inserted and its first request is sent. -/
structure FirstRequest (store : Store) (row : WebhookDelivery) (post : Post) (store' : Store) :
    Prop where
  fresh : ∀ other ∈ store.deliveries, other.id ≠ row.id
  pending : row.status = .pending
  unscheduled : row.nextAttemptAt = none
  unsent : row.attempts = 0
  envelope : post.envelope.id = row.id
  after : store' = { store.saveDelivery row with posts := post :: store.posts }

namespace FirstRequest

variable {row : WebhookDelivery} {post : Post}

theorem touches (h : FirstRequest store row post store') : Touches (some row.id) store store' := by
  have hpost : Touches (some row.id) (store.saveDelivery row)
      { store.saveDelivery row with posts := post :: store.posts } :=
    h.envelope ▸ touches_post (store.saveDelivery row) post
  rw [h.after]
  exact (touches_saveDelivery store row).trans hpost

theorem mem (h : FirstRequest store row post store') : row ∈ store'.deliveries := by
  rw [h.after]
  exact mem_saveDelivery.2 (Or.inl rfl)

theorem eq_row (h : FirstRequest store row post store') {other : WebhookDelivery}
    (hmem : other ∈ store'.deliveries) (hid : some other.id = some row.id) : other = row := by
  rw [h.after] at hmem
  exact eq_of_mem_saveDelivery hmem (Option.some.inj hid)

theorem posted (h : FirstRequest store row post store') (hs : StoreSound cfg store) :
    store'.posted row.id = 1 := by
  rw [h.after, posted_cons rfl, if_pos h.envelope, hs.unknown row.id h.fresh]

/-- The row has not failed, so there is nothing to count. -/
theorem counted (h : FirstRequest store row post store') :
    ∀ other ∈ store'.deliveries, some other.id = some row.id → CountedRow store' other := by
  intro other hother hid hfailed
  rw [h.eq_row hother hid, h.pending] at hfailed
  cases hfailed

theorem rowSound (h : FirstRequest store row post store') (hs : StoreSound cfg store)
    (hmax : 1 ≤ cfg.maxAttempts) : RowSound cfg store' row := by
  refine ⟨?_, ?_, ?_⟩
  · rw [h.unscheduled, h.pending]
    exact ⟨fun hnone => absurd rfl hnone, fun hfailed => by cases hfailed⟩
  · intro hfailed
    rw [h.pending] at hfailed
    cases hfailed
  · rw [h.posted hs]
    exact hmax

theorem storeSound (h : FirstRequest store row post store') (hs : StoreSound cfg store)
    (hmax : 1 ≤ cfg.maxAttempts) : StoreSound cfg store' := by
  have hkeyed : Table.Keyed WebhookDelivery.id store'.deliveries := by
    rw [h.after]
    exact Table.Keyed.put hs.keyed
  refine h.touches.storeSound hs hkeyed ?_ ?_ ?_
  · intro id hid
    exact ⟨row, h.mem, (Option.some.inj hid).symm⟩
  · intro other hother hid
    rw [h.eq_row hother hid]
    exact h.rowSound hs hmax
  · intro hidle
    have hrunning : store'.running = store.running := by rw [h.after]; rfl
    exact h.touches.counted (hs.idle (hrunning ▸ hidle)) h.counted

/-- No call that waits holds the row yet. -/
theorem notHeld (h : FirstRequest store row post store') {q : Process} (hq : Sound cfg store q) :
    ∀ id ∈ q.rows, some id ≠ some row.id := by
  intro id hmem hid
  rcases hq.stored hmem with ⟨held, hheld, hheldId⟩
  exact h.fresh held hheld (hheldId.trans (Option.some.inj hid))

theorem firstAttempt (h : FirstRequest store row post store') (hs : StoreSound cfg store)
    (hmax : 1 ≤ cfg.maxAttempts) (hattempt : post.attempt = row.attempts + 1)
    (hnow : post.now = now) (subscription : WebhookSubscription) :
    FirstAttempt cfg store' now ⟨{ row with attempts := row.attempts + 1 }, subscription, .post⟩ := by
  refine ⟨⟨?_, ?_, ⟨post, ?_, h.envelope, hattempt, hnow⟩, ?_⟩, row, h.mem, rfl, h.pending⟩
  · show row.attempts + 1 ≤ cfg.maxAttempts
    rw [h.unsent]
    exact hmax
  · show store'.posted row.id = row.attempts + 1
    rw [h.posted hs, h.unsent]
  · rw [h.after]
    exact List.mem_cons_self
  · exact fun hstage => absurd rfl hstage

end FirstRequest

theorem keeps_inserted (hmax : 1 ≤ cfg.maxAttempts) {subscription : WebhookSubscription}
    {id : DeliveryId} (hs : StoreSound cfg store)
    (hp : Sound cfg store (.fanOut event data now tasks)) (hnew : store.findDelivery id = none)
    (hsent : Sent cfg now (newDelivery id subscription event data store.clock) subscription
      (store.saveDelivery (newDelivery id subscription event data store.clock)) store' a) :
    Keeps cfg (.fanOut event data now tasks) store store'
      (fanOut event data now (Table.put Prod.fst tasks (key, .deliver a))) := by
  obtain ⟨post, rfl, rfl, hid, hattempt, hnow, _⟩ := sent_spec hsent
  have hfirst : FirstRequest store (newDelivery id subscription event data store.clock) post _ :=
    ⟨Table.lookup_eq_none.1 hnew, rfl, rfl, rfl, hid, rfl⟩
  have hfresh := hfirst.notHeld hp
  refine ⟨hfirst.storeSound hs hmax, fanOut_awaits ⟨?_, ?_⟩, ?_⟩
  · intro key' b hb
    rcases mem_put_task hb with hEq | ⟨hmem, _⟩
    · cases hEq
      exact hfirst.firstAttempt hs hmax hattempt hnow subscription
    · exact hfirst.touches.firstAttempt (hfresh _ (mem_rows_of_task hmem)) (hp.1 key' b hmem)
  · refine hp.2.put ?_
    intro key' b hb _ hEq
    exact hfresh _ (mem_rows_of_task hb) (congrArg some hEq)
  · intro q hq hsep
    have hnot := hfirst.notHeld hq
    refine ⟨hfirst.touches.sound hnot (fun _ => rfl) (fun _ => hfirst.counted) hq,
      fanOut_awaits ⟨?_, ?_⟩⟩
    · exact fun hboth => Bool.noConfusion hboth.2
    · intro other hother hrows
      rcases rows_put hrows with rfl | hold
      · exact hnot _ hother rfl
      · exact hsep.2 other hother hold

theorem keeps_task (hs : StoreSound cfg store)
    (hp : Sound cfg store (.fanOut event data now tasks)) (htask : (key, Task.deliver a) ∈ tasks)
    (h : Delivers cfg now store a reply store' (.await a')) :
    Keeps cfg (.fanOut event data now tasks) store store'
      (fanOut event data now (Table.put Prod.fst tasks (key, .deliver a'))) := by
  have hfirst := hp.1 key a htask
  have hcont := continues_of_delivers h hfirst.1
  have hclock := Nat.le_of_eq hcont.clock.symm
  refine ⟨hs.quiet hcont.deliveries hcont.posts hclock ?_, fanOut_awaits ⟨?_, ?_⟩, ?_⟩
  · intro hidle
    exact hs.idle (hcont.running ▸ hidle)
  · intro key' b hb
    rcases mem_put_task hb with hEq | ⟨hmem, _⟩
    · cases hEq
      refine ⟨hcont.inFlight, ?_⟩
      rw [hcont.deliveries, hcont.same.id]
      exact hfirst.2
    · exact (touches_none hcont.deliveries hcont.posts hclock).firstAttempt nofun
        (hp.1 key' b hmem)
  · refine hp.2.put ?_
    intro key' b hb hkey hEq
    rw [hcont.same.id] at hEq
    exact hkey (hp.2 key' key b a hb htask hEq)
  · intro q hq hsep
    refine ⟨hq.quiet hcont.deliveries hcont.posts hclock (fun _ => hcont.running),
      fanOut_awaits (hsep.mono nofun ?_)⟩
    intro id hid
    rcases rows_put hid with rfl | hold
    · rw [hcont.same.id]
      exact mem_rows_of_task htask
    · exact hold

theorem keeps_taskReturned {delivery : WebhookDelivery} (hs : StoreSound cfg store)
    (hp : Sound cfg store (.fanOut event data now tasks)) (htask : (key, Task.deliver a) ∈ tasks)
    (h : Delivers cfg now store a reply store' (.returned delivery)) :
    Keeps cfg (.fanOut event data now tasks) store store'
      (fanOut event data now (Table.drop Prod.fst tasks key)) := by
  obtain ⟨rfl, rfl, hstage⟩ := returned_of_delivers h
  have hfirst := hp.1 key a htask
  have htouch := touches_saveDelivery store a.delivery
  refine ⟨storeSound_saveDelivery hs (hfirst.1.rowSound hstage) ?_, fanOut_awaits ⟨?_, ?_⟩, ?_⟩
  · exact fun hidle => htouch.counted (hs.idle hidle) hfirst.1.countedRow
  · intro key' b hb
    obtain ⟨hmem, hkey⟩ := Table.mem_drop.1 hb
    refine htouch.firstAttempt ?_ (hp.1 key' b hmem)
    intro hEq
    exact hkey (hp.2 key' key b a hmem htask (Option.some.inj hEq))
  · exact hp.2.drop
  · intro q hq hsep
    refine ⟨htouch.sound ?_ (fun _ => rfl) (fun _ => hfirst.1.countedRow) hq,
      fanOut_awaits (hsep.mono nofun fun id => rows_drop)⟩
    intro id hid hEq
    rw [Option.some.inj hEq] at hid
    exact hsep.2 _ hid (mem_rows_of_task htask)

end Emit

section Tick

variable {store saved store' : Store} {tick : Tick} {delivery : WebhookDelivery} {a a' : Attempt}
  {reply : Reply} {flow : Flow Process Answer}

/-- A tick that has no row in flight takes the next one, or it is over. -/
theorem nextDue_sound (h : nextDue tick saved = (store', flow)) (hs : StoreSound cfg saved)
    (ht : Ticking saved tick.now tick.rest) (hc : Counted saved none) :
    StoreSound cfg store' ∧ flow.Awaits (Sound cfg store') ∧
      (∀ q, q.isTick ≠ true → Sound cfg saved q → Sound cfg store' q) ∧
      flow.Awaits fun p => ∀ id ∈ p.rows, id ∈ tick.rest.map WebhookDelivery.id := by
  rcases nextDue_cases h with ⟨_, rfl, rfl⟩ | ⟨next, rest, hrest, rfl, rfl⟩
  · refine ⟨hs.quiet rfl rfl (le_refl _) fun _ => hc, trivial, ?_, trivial⟩
    intro q hq hsound
    exact hsound.quiet rfl rfl (le_refl _) fun htick => absurd htick hq
  · rw [hrest] at ht ⊢
    exact ⟨hs, ⟨ht, hc⟩, fun q _ hsound => hsound, fun id hid => hid⟩

/-- Two ticks do not wait at the same time. -/
theorem Separate.notTick {p q : Process} (h : Separate q p) (hp : p.isTick = true) :
    q.isTick ≠ true :=
  fun hq => h.1 ⟨hq, hp⟩

/-- A call that waits for a row to be taken up stays apart from the others. -/
theorem awaits_separate {p q : Process} (hsep : Separate q p) (hp : p.isTick = true)
    {rows : List DeliveryId} (hrows : ∀ id ∈ rows, id ∉ q.rows)
    (h : flow.Awaits fun p' => ∀ id ∈ p'.rows, id ∈ rows) : flow.Awaits (Separate q) := by
  cases flow with
  | answer _ => trivial
  | await p' =>
      refine ⟨fun hboth => hsep.notTick hp hboth.1, ?_⟩
      intro id hq hid
      exact hrows id (h id hid) hq

theorem keeps_foundDue {now : Time} (hs : StoreSound cfg store)
    (hp : Sound cfg store (.findDueDeliveries now))
    (h : nextDue ⟨now, findDueDeliveries store now cfg.batchSize, ⟨true, 0, 0, 0⟩⟩ store =
      (store', flow)) : Keeps cfg (.findDueDeliveries now) store store' flow := by
  have ht : Ticking store now (findDueDeliveries store now cfg.batchSize) :=
    ⟨hp.1.running, hp.1.begun, nodup_findDueDeliveries hs.keyed now cfg.batchSize,
      fun row => mem_findDueDeliveries⟩
  obtain ⟨hstore, hself, hothers, hrows⟩ := nextDue_sound h hs ht hp.2
  refine ⟨hstore, hself, ?_⟩
  intro q hq hsep
  have hemit := hsep.notTick rfl
  refine ⟨hothers q hemit hq, awaits_separate hsep rfl ?_ hrows⟩
  -- the rows of `emit` are pending, and the due ones have failed
  intro id hid hheld
  obtain ⟨row, hrow, rfl⟩ := List.mem_map.1 hid
  obtain ⟨pending, hpending, hEq, hstatus⟩ := hq.pending hemit hheld
  have hsame : pending = row := hs.keyed.eq_of_key hpending (ht.due row hrow).1 hEq
  rw [hsame, ht.failed hrow] at hstatus
  cases hstatus

theorem keeps_resent {subscription : WebhookSubscription} (hs : StoreSound cfg store)
    (hp : Sound cfg store (.findSubscription tick delivery))
    (hsent : Sent cfg tick.now delivery subscription store store' a) :
    Keeps cfg (.findSubscription tick delivery) store store' (.await (.redeliver tick a)) := by
  obtain ⟨ht, hc⟩ := hp
  obtain ⟨post, rfl, rfl, hid, hattempt, hnow, _⟩ := sent_spec hsent
  have hmem : delivery ∈ store.deliveries := (ht.due delivery List.mem_cons_self).1
  have hfailed : delivery.status = .failed := ht.failed List.mem_cons_self
  have hrow := hs.rows delivery hmem
  obtain ⟨hlt, earlier, hearlier, hspec⟩ := hrow.failed hfailed
  have htouch : Touches (some delivery.id) store { store with posts := post :: store.posts } :=
    hid ▸ touches_post store post
  have hposted : Store.posted { store with posts := post :: store.posts } delivery.id =
      delivery.attempts + 1 := by
    have hbefore : store.posted delivery.id = delivery.attempts := hc delivery hmem nofun hfailed
    rw [posted_cons rfl, if_pos hid, hbefore]
  refine ⟨htouch.storeSound hs hs.keyed ?_ ?_ ?_, ⟨delivery, rfl, ?_, ?_, ?_⟩, ?_⟩
  · intro id hEq
    exact ⟨delivery, hmem, (Option.some.inj hEq).symm⟩
  · intro row hmem' hEq
    have hsame : row = delivery := hs.keyed.eq_of_key hmem' hmem (Option.some.inj hEq)
    rw [hsame]
    refine ⟨hrow.nextAttemptAt, ?_, ?_⟩
    · exact fun _ => ⟨hlt, earlier, List.mem_cons_of_mem post hearlier, hspec⟩
    · rw [hposted]
      exact hlt
  · intro hidle
    have hrunning := ht.running
    rw [hidle] at hrunning
    cases hrunning
  · exact ⟨ht.running, ht.begun, ht.nodup, ht.due⟩
  · exact ⟨hlt, hposted, ⟨post, List.mem_cons_self, hid, hattempt, hnow⟩,
      fun hstage => absurd rfl hstage⟩
  · intro row hmem' hne hrowFailed
    have hne' : some row.id ≠ some delivery.id := hne
    rw [htouch.posted row.id hne']
    exact hc row hmem' nofun hrowFailed
  · intro q hq hsep
    have hemit := hsep.notTick rfl
    refine ⟨htouch.sound ?_ (fun htick => absurd htick hemit) (fun htick => absurd htick hemit) hq,
      hsep.mono (fun _ => rfl) fun id hid => hid⟩
    intro id hid hEq
    rw [Option.some.inj hEq] at hid
    exact hsep.2 _ hid List.mem_cons_self

theorem keeps_abandoned (hs : StoreSound cfg store)
    (hp : Sound cfg store (.findSubscription tick delivery)) :
    Keeps cfg (.findSubscription tick delivery) store store
      (.await (.giveUp tick (abandon delivery))) := by
  refine ⟨hs, ⟨delivery, rfl, hp.1, hp.2⟩, ?_⟩
  intro q hq hsep
  exact ⟨hq, hsep.mono (fun _ => rfl) fun id hid => hid⟩

/-- A tick saves the row it holds and goes on. -/
theorem keeps_saved {p : Process} {row entity : WebhookDelivery}
    (h : nextDue { tick with result := tick.result.count entity } (store.saveDelivery entity) =
      (store', flow))
    (hs : StoreSound cfg store) (htick : p.isTick = true)
    (hrows : ∀ id, id = entity.id ∨ id ∈ tick.rest.map WebhookDelivery.id → id ∈ p.rows)
    (ht : Ticking store tick.now (row :: tick.rest)) (hid : entity.id = row.id)
    (hentity : RowSound cfg (store.saveDelivery entity) entity)
    (hcounted : CountedRow (store.saveDelivery entity) entity)
    (hc : Counted store (some row.id)) : Keeps cfg p store store' flow := by
  have htouch := touches_saveDelivery store entity
  have hrest : ∀ id ∈ tick.rest.map WebhookDelivery.id, some id ≠ some entity.id := by
    intro id hmem hEq
    have hnodup := ht.nodup
    rw [List.map_cons, List.nodup_cons, ← hid] at hnodup
    exact hnodup.1 (Option.some.inj hEq ▸ hmem)
  have hcountedAll : Counted (store.saveDelivery entity) none := by
    intro other hother _
    by_cases hEq : other.id = entity.id
    · rw [eq_of_mem_saveDelivery hother hEq]
      exact hcounted
    · have hold : other ∈ store.deliveries :=
        (htouch.rows other fun hsome => hEq (Option.some.inj hsome)).1 hother
      exact hc other hold fun hsome => hEq ((Option.some.inj hsome).trans hid.symm)
  have hbehind : Ticking store tick.now tick.rest :=
    ⟨ht.running, ht.begun, (List.nodup_cons.1 ht.nodup).2,
      fun other hother => ht.due other (List.mem_cons_of_mem row hother)⟩
  have hsaved : StoreSound cfg (store.saveDelivery entity) :=
    storeSound_saveDelivery hs hentity fun _ => hcountedAll
  obtain ⟨hstore, hself, hothers, hflow⟩ :=
    nextDue_sound h hsaved (htouch.ticking hrest rfl hbehind) hcountedAll
  refine ⟨hstore, hself, ?_⟩
  intro q hq hsep
  have hemit := hsep.notTick htick
  have hq' : Sound cfg (store.saveDelivery entity) q := by
    refine htouch.sound ?_ (fun htick => absurd htick hemit) (fun htick => absurd htick hemit) hq
    intro id hmem hEq
    exact hsep.2 id hmem (hrows id (Or.inl (Option.some.inj hEq)))
  refine ⟨hothers q hemit hq', awaits_separate hsep htick ?_ hflow⟩
  intro id hmem hheld
  exact hsep.2 id hheld (hrows id (Or.inr hmem))

theorem keeps_gaveUp (hs : StoreSound cfg store) (hp : Sound cfg store (.giveUp tick delivery))
    (h : nextDue { tick with result := tick.result.count delivery } (store.saveDelivery delivery) =
      (store', flow)) : Keeps cfg (.giveUp tick delivery) store store' flow := by
  obtain ⟨row, rfl, ht, hc⟩ := hp
  have hmem : row ∈ store.deliveries := (ht.due row List.mem_cons_self).1
  refine keeps_saved h hs rfl ?_ ht rfl ?_ nofun ?_
  · exact fun id hid => List.mem_cons.2 hid
  · exact ⟨⟨fun hnone => absurd rfl hnone, nofun⟩, nofun, (hs.rows row hmem).posted⟩
  · exact fun other hother _ => hc other hother nofun

theorem keeps_redelivers (hs : StoreSound cfg store) (hp : Sound cfg store (.redeliver tick a))
    (h : Delivers cfg tick.now store a reply store' (.await a')) :
    Keeps cfg (.redeliver tick a) store store' (.await (.redeliver tick a')) := by
  obtain ⟨row, hid, ht, hflight, hc⟩ := hp
  have hcont := continues_of_delivers h hflight
  have hclock := Nat.le_of_eq hcont.clock.symm
  have htouch := touches_none hcont.deliveries hcont.posts hclock
  refine ⟨hs.quiet hcont.deliveries hcont.posts hclock ?_, ⟨row, ?_, ?_, hcont.inFlight, ?_⟩, ?_⟩
  · exact fun hidle => hs.idle (hcont.running ▸ hidle)
  · rw [hcont.same.id]
    exact hid
  · exact htouch.ticking (fun _ _ => nofun) hcont.running ht
  · exact htouch.counted hc (fun _ _ => nofun)
  · intro q hq hsep
    refine ⟨hq.quiet hcont.deliveries hcont.posts hclock (fun _ => hcont.running),
      hsep.mono (fun _ => rfl) ?_⟩
    intro id hmem
    rw [Process.rows, hcont.same.id] at hmem
    exact hmem

theorem keeps_redelivered (hs : StoreSound cfg store) (hp : Sound cfg store (.redeliver tick a))
    (h : Delivers cfg tick.now store a reply saved (.returned delivery))
    (hnext : nextDue { tick with result := tick.result.count delivery } saved = (store', flow)) :
    Keeps cfg (.redeliver tick a) store store' flow := by
  obtain ⟨rfl, rfl, hstage⟩ := returned_of_delivers h
  obtain ⟨row, hid, ht, hflight, hc⟩ := hp
  refine keeps_saved hnext hs rfl ?_ ht hid (hflight.rowSound hstage) ?_ hc
  · exact fun id hmem => List.mem_cons.2 hmem
  · exact hflight.countedRow a.delivery (mem_saveDelivery.2 (Or.inl rfl)) rfl

end Tick

/-! ## Runs -/

/-- The storage operation has not failed. -/
def Reply.isDone : Reply → Bool
  | .failed _ => false
  | _ => true

theorem not_thrown_of_isDone {now : Time} {store store' : Store} {a : Attempt} {reply : Reply}
    {error : String} (hdone : reply.isDone = true) :
    ¬ Delivers cfg now store a reply store' (.thrown error) := by
  intro h
  cases h with
  | thrown hstage => cases hdone

theorem keeps_of_resumes (hmax : 1 ≤ cfg.maxAttempts) {store store' : Store} {p : Process}
    {input : Input} {flow : Flow Process Answer} (hs : StoreSound cfg store)
    (hp : Sound cfg store p) (hdone : input.reply.isDone = true)
    (h : Resumes cfg store p input store' flow) : Keeps cfg p store store' flow := by
  cases h with
  | foundActive => exact keeps_foundActive hs
  | inserted htask hnew hsent => exact keeps_inserted hmax hs hp hnew hsent
  | task htask h => exact keeps_task hs hp htask h
  | taskReturned htask h => exact keeps_taskReturned hs hp htask h
  | taskThrown htask h => exact absurd h (not_thrown_of_isDone hdone)
  | foundDue h => exact keeps_foundDue hs hp h
  | resent hsubscription hactive hsent => exact keeps_resent hs hp hsent
  | abandoned => exact keeps_abandoned hs hp
  | gaveUp h => exact keeps_gaveUp hs hp h
  | redelivers h => exact keeps_redelivers hs hp h
  | redelivered h hnext => exact keeps_redelivered hs hp h hnext
  | notRedelivered h => exact absurd h (not_thrown_of_isDone hdone)
  -- the other branches are those of a failed storage operation
  | _ => cases hdone

/-- The service while its storage works. -/
def reliable (cfg : Config) : Service Store Request Process Input Answer Event :=
  (service cfg).restrict fun _ input _ => input.reply.isDone = true

theorem deliveries_outline (hmax : 1 ≤ cfg.maxAttempts) :
    Outline (reliable cfg) (StoreSound cfg) (fun store _ p => Sound cfg store p) Separate where
  symm := fun p q h => h.symm
  start := by
    intro id request store hs
    cases request with
    | emit event data =>
        refine ⟨hs, trivial, ?_⟩
        intro k q hq
        exact ⟨hq, fun hboth => Bool.noConfusion hboth.2, fun id _ => List.not_mem_nil⟩
    | processDue =>
        by_cases hrunning : store.running = true
        · have hstart : start .processDue store =
              (store, .answer (.processed ⟨false, 0, 0, 0⟩)) := if_pos hrunning
          rw [reliable, Service.restrict_start]
          simp only [service, hstart]
          exact ⟨hs, trivial, fun k q hq => ⟨hq, trivial⟩⟩
        · have hstart : start .processDue store =
              ({ store with running := true }, .await (.findDueDeliveries store.clock)) :=
            if_neg hrunning
          have hc : Counted store none := hs.idle (Bool.not_eq_true _ ▸ hrunning)
          rw [reliable, Service.restrict_start]
          simp only [service, hstart]
          refine ⟨hs.quiet rfl rfl (le_refl _) fun hidle => Bool.noConfusion hidle,
            ⟨⟨rfl, le_refl _, List.nodup_nil, fun _ hr => absurd hr List.not_mem_nil⟩, hc⟩, ?_⟩
          intro k q hq
          -- no tick is waiting, for it would be running
          have hemit : q.isTick ≠ true := fun htick => hrunning (hq.running htick)
          exact ⟨hq.quiet rfl rfl (le_refl _) fun htick => absurd htick hemit,
            fun hboth => hemit hboth.1, fun id _ => List.not_mem_nil⟩
  resume := by
    intro id p input store store' flow hs hp h
    obtain ⟨hdone, hresume⟩ := Service.restrict_resume.1 h
    have hkeeps := keeps_of_resumes hmax hs hp hdone (resumes_of_resume hresume)
    exact ⟨hkeeps.state, hkeeps.self, fun k q _ hq hsep => hkeeps.others q hq hsep⟩
  external := by
    intro e store store' hs h
    obtain ⟨hdeliveries, hposts, hrunning, hclock⟩ := external_store h
    refine ⟨hs.quiet hdeliveries hposts hclock fun hidle => hs.idle (hrunning ▸ hidle), ?_⟩
    intro k q hq
    exact hq.quiet hdeliveries hposts hclock fun _ => hrunning

/-! ## What is sent, and what is final -/

/-- A delivery that is over. -/
def WebhookDelivery.isFinal (row : WebhookDelivery) : Bool :=
  row.status = .delivered || row.status = .exhausted

/-- The first request of a new row; or the next one of a failed row that is due, to a subscription
that is stored and active. -/
def MayPost (store : Store) (post : Post) : Prop :=
  (store.findDelivery post.envelope.id = none ∧ post.attempt = 1) ∨
    ∃ row ∈ store.deliveries, row.id = post.envelope.id ∧ row.status = .failed ∧
      post.attempt = row.attempts + 1 ∧
      (∃ t, row.nextAttemptAt = some t ∧ t ≤ post.now ∧ post.now ≤ post.sentAt) ∧
      ∃ subscription, store.findSubscription row.subscriptionId = some subscription ∧
        subscription.active = true ∧ post.url = subscription.url

section Steps

variable {store store' : Store} {p : Process} {reply : Reply} {input : Input} {flow : Flow Process Answer}

theorem posts_of_delivers {now : Time} {a : Attempt} {turn : Turn}
    (h : Delivers cfg now store a reply store' turn) : store'.posts = store.posts := by
  cases h with
  | _ => rfl

theorem posts_of_nextDue {tick : Tick} (h : nextDue tick store = (store', flow)) :
    store'.posts = store.posts := by
  rcases nextDue_cases h with ⟨_, rfl, _⟩ | ⟨_, _, _, rfl, _⟩
  · rfl
  · rfl

/-- A step sends one request at most. -/
theorem mayPost_of_resumes (hp : Sound cfg store p) (h : Resumes cfg store p input store' flow) :
    store'.posts = store.posts ∨
      ∃ post, store'.posts = post :: store.posts ∧ MayPost store post := by
  cases h with
  | inserted htask hnew hsent =>
      obtain ⟨post, rfl, _, hid, hattempt, _⟩ := sent_spec hsent
      refine Or.inr ⟨post, rfl, Or.inl ⟨?_, hattempt⟩⟩
      rw [hid]
      exact hnew
  | @resent tick delivery _ subscription _ _ hsubscription hactive hsent =>
      obtain ⟨post, rfl, _, hid, hattempt, hnow, hsentAt, hurl⟩ := sent_spec hsent
      obtain ⟨hmem, hdue⟩ := hp.1.due delivery List.mem_cons_self
      simp only [isDue, Bool.and_eq_true, Option.any_eq_true, decide_eq_true_eq] at hdue
      obtain ⟨hfailed, t, hnext, hle⟩ := hdue
      refine Or.inr ⟨post, rfl, Or.inr ⟨delivery, hmem, hid.symm, hfailed, hattempt,
        ⟨t, hnext, ?_, ?_⟩, subscription, hsubscription, hactive, hurl⟩⟩
      · rw [hnow]
        exact hle
      · rw [hnow, hsentAt]
        exact hp.1.begun
  | task htask h => exact Or.inl (posts_of_delivers h)
  | taskReturned htask h => exact Or.inl (posts_of_delivers h)
  | taskThrown htask h => exact Or.inl (posts_of_delivers h)
  | foundDue h => exact Or.inl (posts_of_nextDue h)
  | gaveUp h =>
      have hposts := posts_of_nextDue h
      exact Or.inl hposts
  | redelivers h => exact Or.inl (posts_of_delivers h)
  | redelivered h hnext => exact Or.inl ((posts_of_nextDue hnext).trans (posts_of_delivers h))
  | notRedelivered h =>
      have hposts := posts_of_delivers h
      exact Or.inl hposts
  | _ => exact Or.inl rfl

/-- A row that is not final tells its id apart from those of the final rows. -/
theorem StoreSound.ne_of_final (hs : StoreSound cfg store) {open_ : WebhookDelivery}
    (hopen : open_ ∈ store.deliveries) (hnot : open_.isFinal = false) :
    ∀ row ∈ store.deliveries, row.isFinal = true → some row.id ≠ some open_.id := by
  intro row hrow hfinal hEq
  rw [hs.keyed.eq_of_key hrow hopen (Option.some.inj hEq), hnot] at hfinal
  cases hfinal

theorem isFinal_of_pending {row : WebhookDelivery} (h : row.status = .pending) :
    row.isFinal = false := by
  simp [WebhookDelivery.isFinal, h]

theorem isFinal_of_failed {row : WebhookDelivery} (h : row.status = .failed) :
    row.isFinal = false := by
  simp [WebhookDelivery.isFinal, h]

theorem Ticking.isFinal {now : Time} {rows : List WebhookDelivery} (h : Ticking store now rows)
    {row : WebhookDelivery} (hrow : row ∈ rows) : row.isFinal = false :=
  isFinal_of_failed (h.failed hrow)

/-- `finally` changes no row. -/
theorem touches_running {d : Option DeliveryId} {saved : Store} (h : Touches d store saved)
    (running : Bool) : Touches d store { saved with running } :=
  ⟨h.rows, h.posted, h.posts, h.clock⟩

theorem touches_nextDue {d : Option DeliveryId} {saved : Store} {tick : Tick}
    (h : Touches d store saved) (hnext : nextDue tick saved = (store', flow)) :
    Touches d store store' := by
  rcases nextDue_cases hnext with ⟨_, rfl, _⟩ | ⟨_, _, _, rfl, _⟩
  · exact touches_running h false
  · exact h

/-- A step touches one row at most, and none that is final. -/
theorem touches_of_resumes (hs : StoreSound cfg store) (hp : Sound cfg store p)
    (h : Resumes cfg store p input store' flow) :
    ∃ d, Touches d store store' ∧ ∀ row ∈ store.deliveries, row.isFinal = true → some row.id ≠ d := by
  have hsame : ∀ saved : Store, saved.deliveries = store.deliveries → saved.posts = store.posts →
      saved.clock = store.clock → ∃ d, Touches d store saved ∧
        ∀ row ∈ store.deliveries, row.isFinal = true → some row.id ≠ d :=
    fun saved hdeliveries hposts hclock =>
      ⟨none, touches_none hdeliveries hposts (Nat.le_of_eq hclock.symm), fun _ _ _ => nofun⟩
  cases h with
  | @inserted event data now tasks key subscription id _ a htask hnew hsent =>
      obtain ⟨post, rfl, _, hid, _⟩ := sent_spec hsent
      refine ⟨some id, ?_, ?_⟩
      · have hsave := touches_saveDelivery store (newDelivery id subscription event data store.clock)
        exact hsave.trans (hid ▸ touches_post _ post)
      · intro row hrow _ hEq
        exact Table.lookup_eq_none.1 hnew row hrow (Option.some.inj hEq)
  | task htask h =>
      have hcont := continues_of_delivers h (hp.1 _ _ htask).1
      exact hsame _ hcont.deliveries hcont.posts hcont.clock
  | taskReturned htask h =>
      obtain ⟨rfl, rfl, _⟩ := returned_of_delivers h
      obtain ⟨_, row, hrow, hid, hpending⟩ := hp.1 _ _ htask
      refine ⟨_, touches_saveDelivery store _, ?_⟩
      rw [← hid]
      exact hs.ne_of_final hrow (isFinal_of_pending hpending)
  | taskThrown htask h =>
      cases h with
      | thrown hstage => exact hsame store rfl rfl rfl
  | foundDue h =>
      refine ⟨none, touches_nextDue (touches_none rfl rfl (le_refl _)) h, fun _ _ _ => nofun⟩
  | resent hsubscription hactive hsent =>
      obtain ⟨post, rfl, _, hid, _⟩ := sent_spec hsent
      refine ⟨_, touches_post store post, ?_⟩
      rw [hid]
      exact hs.ne_of_final (hp.1.due _ List.mem_cons_self).1 (hp.1.isFinal List.mem_cons_self)
  | gaveUp h =>
      obtain ⟨row, rfl, ht, _⟩ := hp
      have hid : (abandon row).id = row.id := rfl
      refine ⟨_, touches_nextDue (touches_saveDelivery store _) h, ?_⟩
      rw [hid]
      exact hs.ne_of_final (ht.due _ List.mem_cons_self).1 (ht.isFinal List.mem_cons_self)
  | redelivers h =>
      obtain ⟨row, _, _, hflight, _⟩ := hp
      have hcont := continues_of_delivers h hflight
      exact hsame _ hcont.deliveries hcont.posts hcont.clock
  | redelivered h hnext =>
      obtain ⟨rfl, rfl, _⟩ := returned_of_delivers h
      obtain ⟨row, hid, ht, _⟩ := hp
      refine ⟨_, touches_nextDue (touches_saveDelivery store _) hnext, ?_⟩
      rw [hid]
      exact hs.ne_of_final (ht.due _ List.mem_cons_self).1 (ht.isFinal List.mem_cons_self)
  | notRedelivered h =>
      cases h with
      | thrown hstage => exact hsame { store with running := false } rfl rfl rfl
  | foundActive => exact hsame store rfl rfl rfl
  | notFoundActive => exact hsame store rfl rfl rfl
  | notInserted htask => exact hsame store rfl rfl rfl
  | abandoned => exact hsame store rfl rfl rfl
  | notFoundDue => exact hsame { store with running := false } rfl rfl rfl
  | notFoundSubscription => exact hsame { store with running := false } rfl rfl rfl
  | notGivenUp => exact hsame { store with running := false } rfl rfl rfl

end Steps

/-! ## Whole runs -/

section Runs

variable {c c' : Calls Store Process Answer} {m : Move Request Input Event}

/-- The assertions of the outline. -/
def Orderly (cfg : Config) (c : Calls Store Process Answer) : Prop :=
  c.Annotated (StoreSound cfg) (fun store _ p => Sound cfg store p) Separate

theorem orderly_boot (cfg : Config) (subscriptions : List WebhookSubscription) :
    Orderly cfg (.start (.boot subscriptions)) :=
  Calls.Annotated.start
    ⟨List.nodup_nil, fun _ hrow => absurd hrow List.not_mem_nil, fun _ _ => rfl,
      fun _ _ hrow => absurd hrow List.not_mem_nil⟩

theorem start_rows (request : Request) (store : Store) :
    (start request store).1.deliveries = store.deliveries ∧
      (start request store).1.posts = store.posts := by
  cases request with
  | emit event data => exact ⟨rfl, rfl⟩
  | processDue =>
      simp only [start]
      split
      · exact ⟨rfl, rfl⟩
      · exact ⟨rfl, rfl⟩

theorem mayPost_of_step (hc : Orderly cfg c) (h : (reliable cfg).step m c = some c') :
    c'.store.posts = c.store.posts ∨
      ∃ post, c'.store.posts = post :: c.store.posts ∧ MayPost c.store post := by
  cases Service.steps_of_step h with
  | call id request hnew hunanswered =>
      rw [Calls.store_go]
      exact Or.inl (start_rows request c.store).2
  | resume id p input store flow hp hresume =>
      rw [Calls.store_go]
      obtain ⟨_, hresume⟩ := Service.restrict_resume.1 hresume
      exact mayPost_of_resumes (hc.process id p hp) (resumes_of_resume hresume)
  | external e store hexternal => exact Or.inl (external_store hexternal).2.1

theorem final_of_step (hc : Orderly cfg c) (h : (reliable cfg).step m c = some c')
    {row : WebhookDelivery} (hrow : row ∈ c.store.deliveries) (hfinal : row.isFinal = true) :
    row ∈ c'.store.deliveries ∧ c'.store.posted row.id = c.store.posted row.id := by
  cases Service.steps_of_step h with
  | call id request hnew hunanswered =>
      obtain ⟨hdeliveries, hposts⟩ := start_rows request c.store
      rw [Calls.store_go, Store.posted, Store.posted]
      change row ∈ (start request c.store).1.deliveries ∧ _ = _
      rw [hdeliveries]
      exact ⟨hrow, congrArg _ hposts⟩
  | resume id p input store flow hp hresume =>
      rw [Calls.store_go]
      obtain ⟨_, hresume⟩ := Service.restrict_resume.1 hresume
      obtain ⟨d, htouch, hd⟩ :=
        touches_of_resumes hc.store (hc.process id p hp) (resumes_of_resume hresume)
      have hne := hd row hrow hfinal
      exact ⟨(htouch.rows row hne).2 hrow, htouch.posted row.id hne⟩
  | external e store hexternal =>
      obtain ⟨hdeliveries, hposts, _⟩ := external_store hexternal
      have htouch : Touches none c.store store :=
        touches_none hdeliveries hposts (external_store hexternal).2.2.2
      exact ⟨(htouch.rows row nofun).2 hrow, htouch.posted row.id nofun⟩

/-- A final row stays as it is and is not sent again. -/
theorem final_of_run (hmax : 1 ≤ cfg.maxAttempts) (hc : Orderly cfg c)
    {later : List (Move Request Input Event)} (hrun : run (reliable cfg).step later c = some c')
    {row : WebhookDelivery} (hrow : row ∈ c.store.deliveries) (hfinal : row.isFinal = true) :
    row ∈ c'.store.deliveries ∧ c'.store.posted row.id = c.store.posted row.id := by
  have hend : Orderly cfg c' ∧ row ∈ c'.store.deliveries ∧
      c'.store.posted row.id = c.store.posted row.id := by
    refine run_invariant (P := fun d => Orderly cfg d ∧ row ∈ d.store.deliveries ∧
      d.store.posted row.id = c.store.posted row.id) ?_ ⟨hc, hrow, rfl⟩ hrun
    intro m d d' hd hstep
    obtain ⟨hrow', hposted⟩ := final_of_step hd.1 hstep hd.2.1 hfinal
    exact ⟨(deliveries_outline hmax).step m d d' hd.1 hstep, hrow', hposted.trans hd.2.2⟩
  exact hend.2

/-- The states of deliveries over every run of `emit` and `processDue` whose storage works: a
delivery is sent at most `maxAttempts` times; it waits for another attempt exactly while it has
failed with attempts left, for the backoff after its last attempt; a request is the first one of a
new row, or it is due and goes to a subscription that is there and active; and a delivery that is
over is never changed or sent again. -/
theorem deliveries_follow_state_machine (hmax : 1 ≤ cfg.maxAttempts)
    {subscriptions : List WebhookSubscription} {moves : List (Move Request Input Event)}
    (hrun : run (reliable cfg).step moves (.start (.boot subscriptions)) = some c) :
    (∀ id, c.store.posted id ≤ cfg.maxAttempts) ∧
      (∀ row ∈ c.store.deliveries, (row.nextAttemptAt ≠ none ↔ row.status = .failed) ∧
        (row.status = .failed → row.attempts < cfg.maxAttempts ∧
          ∃ post ∈ c.store.posts, post.envelope.id = row.id ∧ post.attempt = row.attempts ∧
            row.nextAttemptAt = some (post.now +
              min (cfg.baseDelayMs * 2 ^ min (row.attempts - 1) 30) cfg.maxDelayMs))) ∧
      (∀ m c', (reliable cfg).step m c = some c' → c'.store.posts = c.store.posts ∨
        ∃ post, c'.store.posts = post :: c.store.posts ∧ MayPost c.store post) ∧
      ∀ later c', run (reliable cfg).step later c = some c' → ∀ row ∈ c.store.deliveries,
        row.isFinal = true →
          row ∈ c'.store.deliveries ∧ c'.store.posted row.id = c.store.posted row.id := by
  have hc : Orderly cfg c := (deliveries_outline hmax).run (orderly_boot cfg subscriptions) hrun
  refine ⟨?_, ?_, ?_, ?_⟩
  · intro id
    by_cases hknown : ∃ row ∈ c.store.deliveries, row.id = id
    · rcases hknown with ⟨row, hrow, rfl⟩
      exact (hc.store.rows row hrow).posted
    · have hnone : c.store.posted id = 0 :=
        hc.store.unknown id fun row hrow hEq => hknown ⟨row, hrow, hEq⟩
      rw [hnone]
      exact Nat.zero_le _
  · intro row hrow
    have hsound := hc.store.rows row hrow
    exact ⟨hsound.nextAttemptAt, hsound.failed⟩
  · exact fun m c' hstep => mayPost_of_step hc hstep
  · exact fun later c' hlater row hrow hfinal => final_of_run hmax hc hlater hrow hfinal

end Runs

/-! A delivery that fails, is due a second later, and is given up after its second attempt. -/

def sampleConfig : Config where
  maxAttempts := 2
  baseDelayMs := 1000
  maxDelayMs := 3000
  batchSize := 50
  computeSignature := fun _ _ _ => ""

def sampleSubscription : WebhookSubscription where
  id := 1
  url := "https://agent.example/hook"
  events := [.settlementSettled]
  secret := "s3cret"
  active := true

/-- `emit` up to the save of a failed first attempt. -/
def sampleEmit : List (Move Request Input Event) :=
  [.call 0 (.emit .settlementSettled "settlementId"), .resume 0 ⟨none, .done⟩,
    .resume 0 ⟨some 1, .inserted 7⟩, .resume 0 ⟨some 1, .answered 500⟩, .resume 0 ⟨some 1, .done⟩]

/-- A tick a second later. -/
def sampleTick : List (Move Request Input Event) :=
  [.external (.elapse 1000), .call 1 .processDue, .resume 1 ⟨none, .done⟩, .resume 1 ⟨none, .done⟩,
    .resume 1 ⟨none, .unanswered "The operation was aborted due to timeout"⟩,
    .resume 1 ⟨none, .done⟩]

theorem deliveries_follow_state_machine_sample :
    ∃ c c' row, run (reliable sampleConfig).step (sampleEmit ++ sampleTick)
        (.start (.boot [sampleSubscription])) = some c ∧
      row ∈ c.store.deliveries ∧ row.status = .exhausted ∧ c.store.posted row.id = 2 ∧
      c.store.posted row.id ≤ sampleConfig.maxAttempts ∧
      run (reliable sampleConfig).step [.external (.remove 1), .call 2 .processDue] c = some c' ∧
      row ∈ c'.store.deliveries ∧ c'.store.posted row.id = c.store.posted row.id := by
  have hreached : ((run (reliable sampleConfig).step (sampleEmit ++ sampleTick)
      (.start (.boot [sampleSubscription]))).any fun c =>
        (c.store.deliveries.head?.any fun row =>
          row.status = .exhausted && c.store.posted row.id = 2) &&
        (run (reliable sampleConfig).step [.external (.remove 1), .call 2 .processDue] c).isSome) =
          true := by
    decide +kernel
  rcases (Option.any_eq_true _ _).1 hreached with ⟨c, hc, hrest⟩
  rcases Bool.and_eq_true_iff.1 hrest with ⟨hhead, hlater⟩
  rcases (Option.any_eq_true _ _).1 hhead with ⟨row, hrow, hboth⟩
  rcases Bool.and_eq_true_iff.1 hboth with ⟨hstatus, hposted⟩
  rcases Option.isSome_iff_exists.1 hlater with ⟨c', hc'⟩
  have hmem : row ∈ c.store.deliveries := List.mem_of_head? hrow
  have hexhausted : row.status = .exhausted := of_decide_eq_true hstatus
  have hsafe := deliveries_follow_state_machine (by decide) hc
  have hfinal := hsafe.2.2.2 _ c' hc' row hmem (by simp [WebhookDelivery.isFinal, hexhausted])
  exact ⟨c, c', row, hc, hmem, hexhausted, of_decide_eq_true hposted, hsafe.1 row.id, hc', hfinal⟩

end Webhooks
end PaymentRail
