import PaymentRail.Webhooks.SecretRotation
import PaymentRail.Webhooks.SubscriptionSaves

/-!
# SecretsKept — when rotations and removals last

An `Entry` is what there is to say about one subscription: the secret of its row, the secret an
operator was given last, and whether it was removed.  A step of the service is a `Write` to one entry
or changes none (`resumed_of_resume`).

A write is fresh if it does not rest on a row that has changed since it was read.  Fresh writes keep
every entry (`Write.lasting`), and those that are not fresh undo a rotation or a removal
(`Write.fresh_of_lasting`), so that both hold along the same runs (`secrets_kept_iff`).
-/

namespace PaymentRail
namespace Webhooks

open Machine Collections

namespace SecretRotation

/-! ## Entries and writes -/

structure Entry where
  /-- The secret of the row, if there is one. -/
  stored : Option String
  /-- The secret that `rotateSecret` has returned last. -/
  rotated : Option String
  removed : Bool
  deriving DecidableEq, Repr

namespace Entry

/-- No rotation and no removal is undone. -/
structure Lasting (e : Entry) : Prop where
  rotated : ∀ secret, e.rotated = some secret → e.removed = true ∨ e.stored = some secret
  removed : e.removed = true → e.stored = none

/-- The row was there once. -/
def Known (e : Entry) : Prop := e.removed = true ∨ e.stored ≠ none

/-- The row was there once with this secret: it still has it unless it was rotated or removed. -/
def Loaded (e : Entry) (secret : String) : Prop :=
  e.removed = true ∨ e.stored = some secret ∨ (e.stored ≠ none ∧ e.stored = e.rotated)

theorem Loaded.known {e : Entry} {secret : String} (h : e.Loaded secret) : e.Known := by
  rcases h with hremoved | hstored | ⟨hstored, _⟩
  · exact Or.inl hremoved
  · exact Or.inr (by rw [hstored]; exact Option.some_ne_none secret)
  · exact Or.inr hstored

end Entry

/-- What a call writes to the row of a subscription. -/
inductive Write where
  /-- `deliver` saves the entity of an endpoint that is gone. -/
  | pause (id : SubscriptionId) (secret : String)
  | rotate (id : SubscriptionId) (secret : String)
  | remove (id : SubscriptionId)
  | create (id : SubscriptionId) (secret : String)
  deriving DecidableEq, Repr

namespace Write

def id : Write → SubscriptionId
  | pause id _ => id
  | rotate id _ => id
  | remove id => id
  | create id _ => id

def apply : Write → Entry → Entry
  | pause _ secret, e => { e with stored := some secret }
  | rotate _ secret, e => { e with stored := some secret, rotated := some secret }
  | remove _, e => { e with stored := none, removed := true }
  | create _ secret, e => { e with stored := some secret }

/-- The row is still as it was when it was read: with this secret where `deliver` saves it, and there
at all where `rotateSecret` does. -/
def fresh : Write → Entry → Bool
  | pause _ secret, e => e.stored = some secret
  | rotate _ _, e => e.stored.isSome
  | remove _, _ => true
  | create _ _, e => e.stored = none && !e.removed

/-- What the call has read before. -/
def Based : Write → Entry → Prop
  | pause _ secret, e => e.Loaded secret
  | rotate _ _, e => e.Known
  | remove _, _ => True
  | create _ _, e => e.stored = none ∧ e.removed = false

variable {w : Write} {e : Entry} {secret : String}

theorem lasting (he : e.Lasting) (h : w.fresh e = true) : (w.apply e).Lasting := by
  cases w with
  | pause id new =>
      have hstored : e.stored = some new := of_decide_eq_true h
      have hsame : (pause id new).apply e = e := by rw [apply, ← hstored]
      rw [hsame]
      exact he
  | rotate id new =>
      refine ⟨fun secret hsecret => Or.inr hsecret, ?_⟩
      -- a row that is still stored was not removed
      intro hremoved
      rw [fresh, he.removed hremoved] at h
      cases h
  | remove id => exact ⟨fun _ _ => Or.inl rfl, fun _ => rfl⟩
  | create id new =>
      rcases Bool.and_eq_true_iff.1 h with ⟨hnone, hremoved⟩
      have hnone : e.stored = none := of_decide_eq_true hnone
      have hremoved : e.removed = false := by simpa using hremoved
      refine ⟨?_, fun hremoved' => ?_⟩
      · -- an entry without a row that was not removed was never rotated
        intro secret hsecret
        rcases he.rotated secret hsecret with hremoved' | hstored
        · exact Or.inl hremoved'
        · rw [hnone] at hstored
          cases hstored
      · rw [apply, hremoved] at hremoved'
        cases hremoved'

/-- A write that undoes nothing is fresh. -/
theorem fresh_of_lasting (hbased : w.Based e) (h : (w.apply e).Lasting) : w.fresh e = true := by
  cases w with
  | pause id new =>
      -- since it was read the row was removed, or left alone, or rotated
      rcases hbased with hremoved | hstored | ⟨hstored, hrotated⟩
      · cases h.removed hremoved
      · exact decide_eq_true hstored
      · rcases Option.ne_none_iff_exists'.1 hstored with ⟨secret, hsecret⟩
        rcases h.rotated secret (hrotated ▸ hsecret) with hremoved | hnew
        · cases h.removed hremoved
        · -- the secret that is written is the one that was rotated to
          cases hnew
          exact decide_eq_true hsecret
  | rotate id new =>
      rcases hbased with hremoved | hstored
      · cases h.removed hremoved
      · exact Option.isSome_iff_ne_none.2 hstored
  | remove id => rfl
  | create id new => simp [fresh, hbased.1, hbased.2]

theorem known (w : Write) (e : Entry) : (w.apply e).Known := by
  cases w with
  | pause id new => exact Or.inr (Option.some_ne_none new)
  | rotate id new => exact Or.inr (Option.some_ne_none new)
  | remove id => exact Or.inl rfl
  | create id new => exact Or.inr (Option.some_ne_none new)

theorem loaded (h : w.fresh e = true) (hloaded : e.Loaded secret) : (w.apply e).Loaded secret := by
  cases w with
  | pause id new =>
      have hstored : e.stored = some new := of_decide_eq_true h
      have hsame : (pause id new).apply e = e := by rw [apply, ← hstored]
      rw [hsame]
      exact hloaded
  | rotate id new => exact Or.inr (Or.inr ⟨Option.some_ne_none new, rfl⟩)
  | remove id => exact Or.inl rfl
  | create id new =>
      rcases Bool.and_eq_true_iff.1 h with ⟨hnone, hremoved⟩
      have hnone : e.stored = none := of_decide_eq_true hnone
      rcases hloaded.known with hremoved' | hstored
      · rw [hremoved'] at hremoved
        cases hremoved
      · exact absurd hnone hstored

end Write

/-! ## The entries of a store -/

namespace Managed

variable {s s' : Managed} {entity : WebhookSubscription} {id k : SubscriptionId}

def entry (s : Managed) (k : SubscriptionId) : Entry where
  stored := (s.find k).map WebhookSubscription.secret
  rotated := s.lastRotated k
  removed := decide (k ∈ s.removed)

theorem entry_congr (hsubscriptions : s'.webhooks.subscriptions = s.webhooks.subscriptions)
    (hrotated : s'.rotated = s.rotated) (hremoved : s'.removed = s.removed) :
    s'.entry k = s.entry k := by
  simp only [entry, find, Store.findSubscription, lastRotated, hsubscriptions, hrotated, hremoved]

theorem find_save_self : (s.save entity).find entity.id = some entity :=
  Table.lookup_put_self _ _

theorem find_save_of_ne (h : entity.id ≠ k) : (s.save entity).find k = s.find k :=
  Table.lookup_put_of_ne _ _ h

theorem entry_save_self :
    (s.save entity).entry entity.id = { s.entry entity.id with stored := some entity.secret } := by
  rw [entry, find_save_self]
  rfl

theorem entry_save_of_ne (h : entity.id ≠ k) : (s.save entity).entry k = s.entry k := by
  rw [entry, find_save_of_ne h]
  rfl

theorem entry_recordRotated_self {secret : String} :
    (s.recordRotated id secret).entry id = { s.entry id with rotated := some secret } := by
  have hlast : (s.recordRotated id secret).lastRotated id = some secret := by
    rw [lastRotated, recordRotated, Table.lookup_put_self s.rotated (id, secret)]
    rfl
  rw [entry, hlast]
  rfl

theorem entry_recordRotated_of_ne {secret : String} (h : id ≠ k) :
    (s.recordRotated id secret).entry k = s.entry k := by
  have hlast : (s.recordRotated id secret).lastRotated k = s.lastRotated k := by
    rw [lastRotated, recordRotated, Table.lookup_put_of_ne s.rotated (id, secret) h]
    rfl
  rw [entry, hlast]
  rfl

theorem entry_remove_self :
    ((s.delete id).recordRemoved id).entry id =
      { s.entry id with stored := none, removed := true } := by
  have hfind : ((s.delete id).recordRemoved id).find id = none := Table.lookup_drop_self
  rw [entry, hfind]
  simp [recordRemoved, delete, entry, lastRotated]

theorem entry_remove_of_ne (h : id ≠ k) :
    ((s.delete id).recordRemoved id).entry k = s.entry k := by
  have hfind : ((s.delete id).recordRemoved id).find k = s.find k := Table.lookup_drop_of_ne h
  rw [entry, hfind]
  simp [recordRemoved, delete, entry, lastRotated, Ne.symm h]

end Managed

/-! ## What a step writes -/

/-- The write that a step makes. -/
def write : Process → Signal → Managed → Option Write
  | .webhook p, .webhook input, _ => (p.pausing input).map fun e => .pause e.id e.secret
  | .redeliver _ a, .reply reply, _ => (a.pausing reply).map fun e => .pause e.id e.secret
  | .saveRotated e, .reply .done, _ => some (.rotate e.id e.secret)
  | .delete id, .reply .done, s => if (s.find id).isSome = true then some (.remove id) else none
  | _, _, _ => none

/-- The entries after a write: it changes one of them. -/
def written (write : Option Write) (k : SubscriptionId) (e : Entry) : Entry :=
  match write with
  | none => e
  | some w => if w.id = k then w.apply e else e

theorem eq_written {w : Write} {k : SubscriptionId} {e e' : Entry}
    (hself : w.id = k → e' = w.apply e) (hother : w.id ≠ k → e' = e) :
    e' = written (some w) k e := by
  by_cases hk : w.id = k
  · exact (hself hk).trans (if_pos hk).symm
  · exact (hother hk).trans (if_neg hk).symm

/-- The save of `deliver`, as a write. -/
theorem entry_saved {s : Managed} {store : Store} {pausing : Option WebhookSubscription}
    (h : store.subscriptions = saved s.webhooks.subscriptions pausing) (k : SubscriptionId) :
    ({ s with webhooks := store } : Managed).entry k =
      written (pausing.map fun e => .pause e.id e.secret) k (s.entry k) := by
  cases pausing with
  | none => exact Managed.entry_congr h rfl rfl
  | some entity =>
      have hsave : ({ s with webhooks := store } : Managed).entry k = (s.save entity).entry k :=
        Managed.entry_congr h rfl rfl
      rw [hsave]
      refine eq_written ?_ Managed.entry_save_of_ne
      rintro rfl
      exact Managed.entry_save_self

/-- What a call relies on while it waits: the entities it has in memory were rows once. -/
def Holds (s : Managed) : Process → Prop
  | .webhook p => ∀ e ∈ p.inMemory, (s.entry e.id).Loaded e.secret
  | .redeliver _ a => (s.entry a.subscription.id).Loaded a.subscription.secret
  | .saveRotated e => (s.entry e.id).Known
  | _ => True

/-- The id is the primary key. -/
def Managed.Keyed (s : Managed) : Prop :=
  Table.Keyed WebhookSubscription.id s.webhooks.subscriptions

theorem loaded_of_find {s : Managed} {id : SubscriptionId} {row : WebhookSubscription}
    (h : s.find id = some row) : (s.entry row.id).Loaded row.secret := by
  have hid : row.id = id := Table.key_of_lookup h
  refine Or.inr (Or.inl ?_)
  rw [Managed.entry, hid, h]
  rfl

theorem Managed.Keyed.find {s : Managed} (hs : s.Keyed) {row : WebhookSubscription}
    (h : row ∈ s.webhooks.subscriptions) : s.find row.id = some row :=
  Table.lookup_of_mem hs h

/-- A step of a waiting call: its write, and what it has in memory afterwards. -/
structure Resumed (s : Managed) (p : Process) (signal : Signal) (s' : Managed)
    (flow : Flow Process Answer) : Prop where
  entry : ∀ k, s'.entry k = written (write p signal s) k (s.entry k)
  keyed : s.Keyed → s'.Keyed
  holds : s.Keyed → Holds s p → flow.Awaits (Holds s)

section Resume

variable {cfg : Config} {s s' : Managed} {p : Process} {signal : Signal} {flow : Flow Process Answer}

/-- A step that leaves the subscriptions alone. -/
theorem Resumed.unchanged {store : Store} (hwrite : write p signal s = none)
    (hstore : store.subscriptions = s.webhooks.subscriptions)
    (hholds : s.Keyed → Holds s p → flow.Awaits (Holds s)) :
    Resumed s p signal { s with webhooks := store } flow where
  entry := by
    intro k
    rw [hwrite]
    exact Managed.entry_congr hstore rfl rfl
  keyed := by
    intro hs
    rw [Managed.Keyed, hstore]
    exact hs
  holds := hholds

/-- A step that saves what `deliver` has in memory. -/
theorem Resumed.saves {store : Store} {pausing : Option WebhookSubscription}
    (hwrite : write p signal s = pausing.map fun e => .pause e.id e.secret)
    (hstore : store.subscriptions = saved s.webhooks.subscriptions pausing)
    (hholds : s.Keyed → Holds s p → flow.Awaits (Holds s)) :
    Resumed s p signal { s with webhooks := store } flow where
  entry := by
    intro k
    rw [hwrite]
    exact entry_saved hstore k
  keyed := by
    intro hs
    rw [Managed.Keyed, hstore]
    cases pausing with
    | none => exact hs
    | some entity => exact Table.Keyed.put hs
  holds := hholds

theorem holds_lift {q : Webhooks.Process} {next : Flow Webhooks.Process Webhooks.Answer}
    (h : next.Awaits (Recalls s.webhooks q)) (hs : s.Keyed) (hq : Holds s (.webhook q)) :
    (lift next).Awaits (Holds s) := by
  cases next with
  | answer a => trivial
  | await r =>
      intro e' he'
      rcases h e' he' with ⟨e, he, hsame⟩ | hmem
      · rw [hsame.id, hsame.secret]
        exact hq e he
      · exact loaded_of_find (hs.find hmem)

theorem holds_redeliverTurn {now : Time} {a : Attempt} {turn : Turn}
    (h : ∀ a', turn = .await a' → SameSecret a.subscription a'.subscription)
    (ha : Holds s (.redeliver now a)) : (redeliverTurn now turn).Awaits (Holds s) := by
  cases turn with
  | await a' =>
      show (s.entry a'.subscription.id).Loaded a'.subscription.secret
      rw [(h a' rfl).id, (h a' rfl).secret]
      exact ha
  | returned delivery => trivial
  | thrown error => trivial

theorem resumed_redeliverFound (delivery : WebhookDelivery) (now : Time) :
    Resumed s (.findSubscription delivery now) (.reply .done)
      (redeliverFound cfg delivery now s (s.find delivery.subscriptionId)).1
      (.await (redeliverFound cfg delivery now s (s.find delivery.subscriptionId)).2) := by
  unfold redeliverFound
  split
  · rename_i subscription hfind
    split
    · exact .unchanged rfl rfl fun _ _ => loaded_of_find hfind
    · exact .unchanged rfl rfl fun _ _ => trivial
  · exact .unchanged rfl rfl fun _ _ => trivial

theorem resumed_saveRotated (entity : WebhookSubscription) :
    Resumed s (.saveRotated entity) (.reply .done)
      ((s.save entity).recordRotated entity.id entity.secret) (.answer (.rotated entity)) where
  entry := by
    intro k
    refine eq_written ?_ ?_
    · rintro rfl
      exact Managed.entry_recordRotated_self.trans (by rw [Managed.entry_save_self]; rfl)
    · intro hk
      exact (Managed.entry_recordRotated_of_ne hk).trans (Managed.entry_save_of_ne hk)
  keyed := fun hs => Table.Keyed.put hs
  holds := fun _ _ => trivial

theorem resumed_delete {id : SubscriptionId} {row : WebhookSubscription} (h : s.find id = some row) :
    Resumed s (.delete id) (.reply .done) ((s.delete id).recordRemoved id) (.answer .removed) where
  entry := by
    intro k
    have hwrite : write (.delete id) (.reply .done) s = some (.remove id) := by simp [write, h]
    rw [hwrite]
    refine eq_written ?_ Managed.entry_remove_of_ne
    rintro rfl
    exact Managed.entry_remove_self
  keyed := fun hs => Table.Keyed.drop hs
  holds := fun _ _ => trivial

theorem resumed_of_resume (h : resume cfg p signal s = some (s', flow)) :
    Resumed s p signal s' flow := by
  unfold resume at h
  split at h
  · rcases Option.map_eq_some_iff.1 h with ⟨next, hresume, hnext⟩
    cases hnext
    rcases resume_saves hresume with ⟨hsubscriptions, hrecalls⟩
    exact .saves rfl hsubscriptions (holds_lift hrecalls)
  · cases h
    exact resumed_redeliverFound _ _
  · cases h
    exact .unchanged rfl rfl fun _ _ => trivial
  · rcases Option.map_eq_some_iff.1 h with ⟨next, hstep, hnext⟩
    cases hnext
    rcases deliverStep_saves hstep with ⟨hsubscriptions, hsame⟩
    exact .saves rfl hsubscriptions fun _ hp => holds_redeliverTurn hsame hp
  · split at h
    · cases h
      exact .unchanged rfl rfl fun _ _ => trivial
    · rename_i hfind
      cases h
      exact .unchanged rfl rfl fun _ _ => (loaded_of_find hfind).known
  · cases h
    exact resumed_saveRotated _
  · rename_i id
    split at h
    · rename_i hnone
      cases h
      exact .unchanged (by simp [write, hnone]) rfl fun _ _ => trivial
    · rename_i row hrow
      cases h
      exact resumed_delete hrow
  -- a storage operation has failed
  · cases h
    exact .unchanged rfl rfl fun _ _ => trivial
  · cases h
    exact .unchanged rfl rfl fun _ _ => trivial
  · cases h
    exact .unchanged rfl rfl fun _ _ => trivial
  · cases h
    exact .unchanged rfl rfl fun _ _ => trivial
  · cases h
    exact .unchanged rfl rfl fun _ _ => trivial
  · cases h

end Resume

/-- The call has read what its write is based on. -/
theorem based_of_holds {s : Managed} {p : Process} {signal : Signal} {w : Write} (h : Holds s p)
    (hwrite : write p signal s = some w) : w.Based (s.entry w.id) := by
  unfold write at hwrite
  split at hwrite
  · rename_i q input
    rcases Option.map_eq_some_iff.1 hwrite with ⟨e, hpausing, rfl⟩
    exact h e (mem_inMemory_of_pausing hpausing)
  · rename_i now a reply
    rcases Option.map_eq_some_iff.1 hwrite with ⟨e, hpausing, rfl⟩
    rw [← eq_of_pausing hpausing]
    exact h
  · cases hwrite
    exact h
  · split at hwrite
    · cases hwrite
      trivial
    · cases hwrite
  · cases hwrite

/-! ## Fresh writes -/

/-- The write may be made to the store. -/
def Allowed (w : Option Write) (s : Managed) : Bool := w.all fun w => w.fresh (s.entry w.id)

section Written

variable {s s' : Managed} {w : Option Write}

/-- The entries of `s'` are those of `s` after a write that is fresh. -/
structure Advances (w : Option Write) (s s' : Managed) : Prop where
  entry : ∀ k, s'.entry k = written w k (s.entry k)
  allowed : Allowed w s = true

theorem Advances.of_eq (h : ∀ k, s'.entry k = s.entry k) : Advances none s s' := ⟨h, rfl⟩

/-- A property of entries that fresh writes keep is kept. -/
theorem Advances.keep {P : Entry → Prop} (h : Advances w s s')
    (hkeep : ∀ (w : Write) (e : Entry), w.fresh e = true → P e → P (w.apply e)) {k : SubscriptionId}
    (hk : P (s.entry k)) : P (s'.entry k) := by
  have hallowed := h.allowed
  rw [h.entry k]
  cases w with
  | none => exact hk
  | some w =>
      show P (if w.id = k then w.apply (s.entry k) else s.entry k)
      by_cases hid : w.id = k
      · subst hid
        rw [if_pos rfl]
        exact hkeep w _ hallowed hk
      · rw [if_neg hid]
        exact hk

theorem Advances.holds (h : Advances w s s') {p : Process} (hp : Holds s p) : Holds s' p := by
  have hloaded : ∀ e : WebhookSubscription, (s.entry e.id).Loaded e.secret →
      (s'.entry e.id).Loaded e.secret :=
    fun e he => h.keep (P := fun entry => entry.Loaded e.secret)
      (fun _ _ hfresh hentry => Write.loaded hfresh hentry) he
  cases p with
  | webhook p => exact fun e he => hloaded e (hp e he)
  | redeliver now a => exact hloaded a.subscription hp
  | saveRotated e => exact h.keep (fun w entry _ _ => Write.known w entry) hp
  | findSubscription delivery now => trivial
  | giveUp delivery => trivial
  | findOne id => trivial
  | delete id => trivial

theorem Advances.lasting (h : Advances w s s') (hs : ∀ k, (s.entry k).Lasting) :
    ∀ k, (s'.entry k).Lasting :=
  fun k => h.keep (fun _ _ hfresh hentry => Write.lasting hentry hfresh) (hs k)

end Written

/-! ## Runs -/

/-- The move makes no write that rests on a row which has changed since it was read. -/
def fresh : Move Request Signal Event → State → Bool
  | .resume id signal, c => (c.process id).all fun p => Allowed (write p signal c.store) c.store
  | _, _ => true

/-- No rotation and no removal is undone. -/
def Kept (c : State) : Prop := ∀ id, (c.store.entry id).Lasting

structure Invariant (c : State) : Prop where
  keyed : c.store.Keyed
  kept : Kept c
  holds : ∀ id p, c.process id = some p → Holds c.store p

theorem invariant_empty : Invariant (Calls.start Managed.empty) where
  keyed := List.nodup_nil
  kept := fun _ => ⟨fun _ h => (by cases h), fun h => (by cases h)⟩
  holds := fun _ _ hp => (by cases hp)

section Steps

variable {cfg : Config} {c c' : State}

theorem start_unchanged (request : Request) (s : Managed) :
    (start request s).1.webhooks.subscriptions = s.webhooks.subscriptions ∧
      (start request s).1.rotated = s.rotated ∧ (start request s).1.removed = s.removed := by
  cases request with
  | webhook request =>
      cases request with
      | emit event data => exact ⟨rfl, rfl, rfl⟩
      | processDue =>
          refine ⟨?_, rfl, rfl⟩
          simp only [start, Webhooks.start]
          split
          · rfl
          · rfl
  | redeliver delivery => exact ⟨rfl, rfl, rfl⟩
  | rotateSecret id => exact ⟨rfl, rfl, rfl⟩
  | remove id => exact ⟨rfl, rfl, rfl⟩

/-- A call that begins has nothing in memory. -/
theorem start_holds (request : Request) (s s' : Managed) :
    (start request s).2.Awaits (Holds s') := by
  cases request with
  | webhook request =>
      cases request with
      | emit event data => exact fun e he => absurd he List.not_mem_nil
      | processDue =>
          simp only [start, Webhooks.start]
          split
          · trivial
          · exact fun e he => absurd he List.not_mem_nil
  | redeliver delivery => trivial
  | rotateSecret id => trivial
  | remove id => trivial

/-- What happens from outside is a write that is fresh, or none. -/
theorem external_advances {e : Event} {s s' : Managed} (h : external e s = some s') :
    (∃ w, Advances w s s') ∧ (s.Keyed → s'.Keyed) := by
  cases e with
  | create subscription =>
      simp only [external] at h
      split at h
      · rename_i hnew
        cases h
        refine ⟨⟨some (.create subscription.id subscription.secret), ?_, ?_⟩,
          fun hs => Table.Keyed.put hs⟩
        · intro k
          refine eq_written ?_ Managed.entry_save_of_ne
          rintro rfl
          exact Managed.entry_save_self
        · simp [Allowed, Write.fresh, Write.id, Managed.entry, hnew.1, hnew.2]
      · cases h
  | elapse ms =>
      cases h
      exact ⟨⟨none, .of_eq fun _ => rfl⟩, fun hs => hs⟩

theorem Invariant.advance {w : Option Write} {s' : Managed} (hc : Invariant c)
    (h : Advances w c.store s') (hkeyed : c.store.Keyed → s'.Keyed) {id : CallId}
    {flow : Flow Process Answer} (hflow : flow.Awaits (Holds s')) : Invariant (c.go id s' flow) := by
  refine ⟨?_, ?_, ?_⟩
  · rw [Calls.store_go]
    exact hkeyed hc.keyed
  · intro k
    rw [Calls.store_go]
    exact h.lasting hc.kept k
  · intro k p hp
    rw [Calls.store_go]
    rcases Calls.of_process_go hp with ⟨_, rfl⟩ | ⟨_, hold⟩
    · exact hflow
    · exact h.holds (hc.holds k p hold)

theorem step_keeps (m : Move Request Signal Event) (c c' : State) (hc : Invariant c)
    (h : (service cfg).step m c = some c') (hfresh : fresh m c = true) :
    Invariant c' ∧ Kept c' := by
  suffices hinvariant : Invariant c' from ⟨hinvariant, hinvariant.kept⟩
  cases Service.steps_of_step h with
  | call id request hnew hunanswered =>
      rcases start_unchanged request c.store with ⟨hsubscriptions, hrotated, hremoved⟩
      refine hc.advance (.of_eq fun _ => Managed.entry_congr hsubscriptions hrotated hremoved) ?_
        (start_holds request c.store _)
      intro hs
      show Table.Keyed WebhookSubscription.id (start request c.store).1.webhooks.subscriptions
      rw [hsubscriptions]
      exact hs
  | resume id p signal store flow hp hresume =>
      have hresumed := resumed_of_resume hresume
      have hallowed : Allowed (write p signal c.store) c.store = true := by
        simpa [fresh, hp] using hfresh
      -- what the call has in memory is judged by the old store, and then carried over the write
      have hadvances : Advances (write p signal c.store) c.store store := ⟨hresumed.entry, hallowed⟩
      refine hc.advance hadvances hresumed.keyed ?_
      exact (hresumed.holds hc.keyed (hc.holds id p hp)).imp fun q hq => hadvances.holds hq
  | external e store hexternal =>
      rcases external_advances hexternal with ⟨⟨w, hadvances⟩, hkeyed⟩
      exact ⟨hkeyed hc.keyed, hadvances.lasting hc.kept,
        fun id p hp => hadvances.holds (hc.holds id p hp)⟩

/-- A step that undoes nothing makes no write that is out of date. -/
theorem fresh_of_kept (m : Move Request Signal Event) (c c' : State) (hc : Invariant c)
    (h : (service cfg).step m c = some c') (hkept : Kept c') : fresh m c = true := by
  cases Service.steps_of_step h with
  | call id request hnew hunanswered => rfl
  | external e store hexternal => rfl
  | resume id p signal store flow hp hresume =>
      have hresumed := resumed_of_resume hresume
      simp only [fresh, hp, Option.all_some]
      cases hwrite : write p signal c.store with
      | none => rfl
      | some w =>
          have hentry : store.entry w.id = w.apply (c.store.entry w.id) := by
            rw [hresumed.entry, hwrite]
            exact if_pos rfl
          have hlasting : (store.entry w.id).Lasting := by
            have h := hkept w.id
            rwa [Calls.store_go] at h
          rw [hentry] at hlasting
          exact Write.fresh_of_lasting (based_of_holds (hc.holds id p hp) hwrite) hlasting

end Steps

/-- Along every interleaving of the calls, with any answers of the subscribers: no rotation and no
removal is ever undone if and only if no call saves an entity that is out of date. -/
theorem secrets_kept_iff (cfg : Config) (moves : List (Move Request Signal Event)) :
    (service cfg).Along (fun _ _ c' => Kept c') moves (Calls.start Managed.empty) ↔
      (service cfg).Along (fun m c _ => fresh m c = true) moves (Calls.start Managed.empty) :=
  Service.along_iff step_keeps fresh_of_kept invariant_empty

/-! ## Saves that are fresh and saves that are not -/

def sampleConfig : Config where
  maxAttempts := 6
  baseDelayMs := 10000
  maxDelayMs := 3600000
  batchSize := 100
  computeSignature := fun secret _ _ => secret

def sampleSubscription : WebhookSubscription where
  id := 1
  url := "https://a.example/h"
  events := [.escrowClosed]
  secret := "old"
  active := true

/-- An event is sent to the subscription, and the request is on its way. -/
def eventSent : List (Move Request Signal Event) :=
  [.external (.create sampleSubscription), .call 0 (.webhook (.emit .escrowClosed "data")),
    .resume 0 (.webhook ⟨none, .done⟩), .resume 0 (.webhook ⟨some 1, .inserted 7⟩)]

/-- The subscriber answers 410 and the subscription is paused. -/
def endpointGone : List (Move Request Signal Event) :=
  [.resume 0 (.webhook ⟨some 1, .answered 410⟩), .resume 0 (.webhook ⟨some 1, .done⟩)]

def secretRotated : List (Move Request Signal Event) :=
  [.call 1 (.rotateSecret 1), .resume 1 (.read "new"), .resume 1 (.reply .done)]

def subscriptionRemoved : List (Move Request Signal Event) :=
  [.call 2 (.remove 1), .resume 2 (.reply .done)]

theorem secrets_kept_in_turn :
    (run (service sampleConfig).step
        (eventSent ++ endpointGone ++ secretRotated ++ subscriptionRemoved)
        (Calls.start Managed.empty)).isSome = true ∧
      (service sampleConfig).Along (fun _ _ c' => Kept c')
        (eventSent ++ endpointGone ++ secretRotated ++ subscriptionRemoved)
        (Calls.start Managed.empty) :=
  ⟨by decide +kernel, (secrets_kept_iff sampleConfig _).2 (by decide +kernel)⟩

/-- A 410 that is answered after the secret was rotated brings the old secret back, and one that is
answered after the subscription was removed brings the subscription back. -/
theorem gone_endpoint_undoes_changes :
    (¬ ∀ (moves : List (Move Request Signal Event)) (c : State),
      run (service sampleConfig).step moves (Calls.start Managed.empty) = some c →
        ∀ id secret, (c.store.entry id).rotated = some secret →
          (c.store.entry id).removed = true ∨ (c.store.entry id).stored = some secret) ∧
    ¬ ∀ (moves : List (Move Request Signal Event)) (c : State),
      run (service sampleConfig).step moves (Calls.start Managed.empty) = some c →
        ∀ id, (c.store.entry id).removed = true → (c.store.entry id).stored = none := by
  have hrotation : (run (service sampleConfig).step (eventSent ++ secretRotated ++ endpointGone)
      (Calls.start Managed.empty)).any
        (fun c => decide (c.store.entry 1 = ⟨some "old", some "new", false⟩)) = true := by
    decide +kernel
  have hremoval : (run (service sampleConfig).step (eventSent ++ subscriptionRemoved ++ endpointGone)
      (Calls.start Managed.empty)).any
        (fun c => decide (c.store.entry 1 = ⟨some "old", none, true⟩)) = true := by
    decide +kernel
  constructor
  · intro hclaim
    rcases (Option.any_eq_true _ _).1 hrotation with ⟨c, hrun, hentry⟩
    have hlast := hclaim _ c hrun 1 "new"
    rw [of_decide_eq_true hentry] at hlast
    exact absurd (hlast rfl) (by decide)
  · intro hclaim
    rcases (Option.any_eq_true _ _).1 hremoval with ⟨c, hrun, hentry⟩
    have hgone := hclaim _ c hrun 1
    rw [of_decide_eq_true hentry] at hgone
    exact absurd (hgone rfl) (by decide)

end SecretRotation
end Webhooks
end PaymentRail
