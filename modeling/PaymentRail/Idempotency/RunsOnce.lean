import PaymentRail.Idempotency.IdempotencyInterceptor

/-!
# RunsOnce — an idempotency key runs its mutation once

From the insert of its record to the end of the request, one request owns the key on a route; no
other request gets past the unique index.  The request gives the key back when its handler has
failed.  It also gives it back when the handler has succeeded and only the save of the response has
failed, and then a retry runs the mutation a second time.  In the runs in which that release does
not take effect (`keyKept`) at most one handler succeeds, and everybody else gets its response or an
error.
-/

namespace PaymentRail
namespace Idempotency

open Machine Strings Collections

variable {Body Response : Type}

/-! ## The statement -/

def Result.isReturned : Result Response → Bool
  | .returned _ => true
  | .threw _ => false

/-- The handler ended well, under the key on the route. -/
def Execution.succeeded (key scope : Text) (e : Execution Response) : Bool :=
  e.key = some key && e.scope = scope && e.result.isReturned

/-- The response that `complete` stores for it. -/
def Execution.response (cfg : Config Body Response) (e : Execution Response) : Option Response :=
  match e.result with
  | .returned body => body.map cfg.jsonForm
  | .threw _ => none

def Store.succeeded (store : Store Response) (key scope : Text) : List (Execution Response) :=
  store.executions.filter (·.succeeded key scope)

/-- The requests with the key come within the TTL of its record. -/
def withinTtl (key scope : Text) :
    Process Body Response → Reply Response → Store Response → Bool
  | .purgeExpired _ now, _, store =>
      store.records.all fun record =>
        ¬ (record.key = key ∧ record.scope = scope ∧ record.expiresAt < now)
  | .findOne r now, _, store =>
      ¬ r.on key scope || (store.findOne key scope).all fun existing => ¬ existing.expiresAt ≤ now
  | _, _, _ => true

/-- A key whose handler has succeeded is not released. -/
def keyKept (key scope : Text) : Process Body Response → Reply Response → Bool
  | .release _ _ _, .failed _ => true
  | .release r record _, _ => ¬ (r.on key scope ∧ record.status = .completed)
  | _, _ => true

def onceService (cfg : Config Body Response) (key scope : Text) :
    Service (Store Response) (Request Body) (Process Body Response) (Reply Response)
      (Answer Body Response) Event :=
  (service cfg).restrict fun p reply store =>
    withinTtl key scope p reply store = true ∧ keyKept key scope p reply = true

/-! ## The records of a key -/

def Store.recordsOf (store : Store Response) (key scope : Text) :
    List (IdempotencyRecord Response) :=
  store.records.filter fun record => record.key = key ∧ record.scope = scope

section Records

variable {store : Store Response} {key scope : Text} {record x : IdempotencyRecord Response}

theorem mem_recordsOf :
    x ∈ store.recordsOf key scope ↔ x ∈ store.records ∧ x.key = key ∧ x.scope = scope := by
  simp [Store.recordsOf]

theorem mem_recordsOf_of_findOne (h : store.findOne key scope = some x) :
    x ∈ store.recordsOf key scope := by
  have hx := List.find?_some h
  exact mem_recordsOf.2 ⟨List.mem_of_find?_eq_some h, by simpa using hx⟩

theorem recordsOf_delete {id : RecordId} (h : ∀ x ∈ store.recordsOf key scope, x.id ≠ id) :
    (store.delete id).recordsOf key scope = store.recordsOf key scope := by
  rw [Store.recordsOf, Store.delete, Table.drop, List.filter_comm]
  refine List.filter_eq_self.2 ?_
  intro x hx
  simpa using h x hx

theorem recordsOf_purge {now : Time}
    (h : ∀ x ∈ store.recordsOf key scope, ¬ x.expiresAt < now) :
    (store.purge now).recordsOf key scope = store.recordsOf key scope := by
  rw [Store.recordsOf, Store.purge, List.filter_comm]
  refine List.filter_eq_self.2 ?_
  intro x hx
  simpa using h x hx

theorem recordsOf_insert_of_ne (h : ¬ (record.key = key ∧ record.scope = scope)) :
    (store.insert record).recordsOf key scope = store.recordsOf key scope := by
  simp [Store.recordsOf, Store.insert, h]

theorem recordsOf_insert (h : record.key = key ∧ record.scope = scope) :
    (store.insert record).recordsOf key scope = record :: store.recordsOf key scope := by
  simp [Store.recordsOf, Store.insert, h]

theorem recordsOf_save_of_ne (h : ¬ (record.key = key ∧ record.scope = scope)) :
    (store.save record).recordsOf key scope = (store.delete record.id).recordsOf key scope := by
  simp [Store.recordsOf, Store.save, Store.delete, Table.put, h]

theorem recordsOf_save (h : record.key = key ∧ record.scope = scope) :
    (store.save record).recordsOf key scope =
      record :: (store.delete record.id).recordsOf key scope := by
  simp [Store.recordsOf, Store.save, Store.delete, Table.put, h]

theorem mem_recordsOf_delete {id : RecordId} :
    x ∈ (store.delete id).recordsOf key scope ↔ x ∈ store.recordsOf key scope ∧ x.id ≠ id := by
  simp only [mem_recordsOf, Store.delete, Table.mem_drop]
  exact and_right_comm

/-- The unique index lets a record in only if it is alone. -/
theorem id_of_not_taken (h : store.taken record = false) (hkey : record.key = key)
    (hscope : record.scope = scope) (hx : x ∈ store.recordsOf key scope) : x.id = record.id := by
  by_contra hne
  rcases mem_recordsOf.1 hx with ⟨hmem, hxkey, hxscope⟩
  have htaken : store.taken record = true :=
    List.any_eq_true.2 ⟨x, hmem, by simp [hxkey, hxscope, hkey, hscope, hne]⟩
  rw [h] at htaken
  cases htaken

/-- The ids of the records are distinct, and new ones are greater. -/
structure Store.Numbered (store : Store Response) : Prop where
  keyed : Table.Keyed IdempotencyRecord.id store.records
  bound : ∀ x ∈ store.records, x.id < store.nextId

theorem Store.Numbered.purge (h : store.Numbered) (now : Time) : (store.purge now).Numbered := by
  refine ⟨List.Nodup.sublist (List.Sublist.map _ List.filter_sublist) h.keyed, ?_⟩
  exact fun x hx => h.bound x (List.mem_filter.1 hx).1

theorem Store.Numbered.delete (h : store.Numbered) (id : RecordId) : (store.delete id).Numbered :=
  ⟨h.keyed.drop, fun x hx => h.bound x (Table.mem_drop.1 hx).1⟩

theorem Store.Numbered.insert (h : store.Numbered) (hid : record.id = store.nextId) :
    (store.insert record).Numbered := by
  refine ⟨List.nodup_cons.2 ⟨?_, h.keyed⟩, ?_⟩
  · intro hmem
    rcases List.mem_map.1 hmem with ⟨other, hother, hEq⟩
    exact absurd (h.bound other hother) (by rw [hEq, hid]; exact lt_irrefl _)
  · intro x hx
    rcases List.mem_cons.1 hx with rfl | hx
    · rw [hid]
      exact Nat.lt_succ_self _
    · exact Nat.lt_succ_of_lt (h.bound x hx)

theorem Store.Numbered.save (h : store.Numbered) (hid : record.id < store.nextId) :
    (store.save record).Numbered := by
  refine ⟨h.keyed.put, ?_⟩
  intro x hx
  rcases Table.mem_put hx with rfl | ⟨hx, _⟩
  · exact hid
  · exact h.bound x hx

end Records

/-! ## The assertions -/

/-- The call has not run a handler. -/
def Unrun (store : Store Response) (id : CallId) : Prop := ∀ e ∈ store.executions, e.call ≠ id

/-- At most one record holds the key and at most one handler has succeeded under it; as long as one
has, the key is held, and a response that is stored is that of the handler. -/
structure Slot (cfg : Config Body Response) (key scope : Text) (store : Store Response) : Prop where
  numbered : store.Numbered
  single : ∀ x ∈ store.recordsOf key scope, ∀ y ∈ store.recordsOf key scope, x.id = y.id
  once : (store.succeeded key scope).length ≤ 1
  held : ∀ e ∈ store.succeeded key scope, ∃ x, x ∈ store.recordsOf key scope
  response : ∀ x ∈ store.recordsOf key scope, x.status = .completed →
    ∃ e ∈ store.succeeded key scope, x.responseBody = e.response cfg

/-- The id of a record that a request works with is the one that holds the key, or it is that of
another key. -/
structure Holds (key scope : Text) (store : Store Response) (r : KeyedRequest Body) (id : RecordId) :
    Prop where
  bound : id < store.nextId
  own : r.on key scope → ∃ x ∈ store.recordsOf key scope, x.id = id
  foreign : ¬ r.on key scope → ∀ x ∈ store.recordsOf key scope, x.id ≠ id

/-- The record is one of the key and the route of the request. -/
def IdempotencyRecord.Of (record : IdempotencyRecord Response) (r : KeyedRequest Body) : Prop :=
  record.key = r.key ∧ record.scope = r.scope

/-- Every handler the call has run has failed. -/
def AllThrew (store : Store Response) (id : CallId) : Prop :=
  ∀ e ∈ store.executions, e.call = id → e.result.isReturned = false

def Process.Assert (cfg : Config Body Response) (key scope : Text) (store : Store Response)
    (id : CallId) : Process Body Response → Prop
  | .handleUnkeyed request => request.key? = none
  | .purgeExpired r _ => r.on key scope → Unrun store id
  | .findOne r _ => r.on key scope → Unrun store id
  | .deleteExpired r _ existing => ¬ r.on key scope ∧ Holds key scope store r existing.id
  | .insert r _ => r.on key scope → Unrun store id
  | .handle r record =>
      record.Of r ∧ record.status = .inProgress ∧ Holds key scope store r record.id ∧
        (r.on key scope → store.succeeded key scope = [] ∧ Unrun store id)
  | .complete r record _ =>
      record.Of r ∧ record.status = .completed ∧ Holds key scope store r record.id ∧
        (r.on key scope → ∃ e ∈ store.succeeded key scope,
          e.call = id ∧ record.responseBody = e.response cfg)
  | .release r record _ =>
      Holds key scope store r record.id ∧
        (r.on key scope →
          (record.status = .inProgress ∧ store.succeeded key scope = [] ∧ AllThrew store id) ∨
          (record.status = .completed ∧ ∃ e ∈ store.succeeded key scope, e.call = id))

/-- The call has the key, from the insert of the record to its answer. -/
def Process.owner (key scope : Text) : Process Body Response → Prop
  | .handle r _ => r.on key scope
  | .complete r _ _ => r.on key scope
  | .release r _ _ => r.on key scope
  | _ => False

/-- Two calls do not have the key at the same time. -/
def Process.Apart (key scope : Text) (p q : Process Body Response) : Prop :=
  ¬ (p.owner key scope ∧ q.owner key scope)

/-- What becomes of a request with the key: it is the one whose handler succeeded, it gets the
response of that one, or it gets an error and its own handler has not succeeded, if it ran at all. -/
def Served (cfg : Config Body Response) (key scope : Text) (store : Store Response) (id : CallId)
    (outcome : Outcome Response) : Prop :=
  (∃ e ∈ store.succeeded key scope, e.call = id) ∨
    (∃ e ∈ store.succeeded key scope, outcome = .replayed (e.response cfg) ∧ Unrun store id) ∨
    ((∃ error, outcome = .error error) ∧ AllThrew store id)

def Answer.Served (cfg : Config Body Response) (key scope : Text) (store : Store Response)
    (id : CallId) (answer : Answer Body Response) : Prop :=
  answer.request.key? = some key → answer.request.scope = scope →
    Idempotency.Served cfg key scope store id answer.outcome

theorem Unrun.allThrew {store : Store Response} {id : CallId} (h : Unrun store id) :
    AllThrew store id :=
  fun e he hcall => absurd hcall (h e he)

/-! ## What the others leave alone -/

section Frames

variable {cfg : Config Body Response} {key scope : Text} {store store' : Store Response}
  {k id : CallId} {p q : Process Body Response}

/-- No record of the past gets the key, and the others do not run handlers for this call. -/
structure Frame (key scope : Text) (k : CallId) (store store' : Store Response) : Prop where
  nextId : store.nextId ≤ store'.nextId
  records : ∀ x ∈ store'.recordsOf key scope, x.id < store.nextId →
    ∃ y ∈ store.recordsOf key scope, y.id = x.id
  runs : ∀ e ∈ store'.executions, e.call = k → e ∈ store.executions
  grows : ∀ e ∈ store.executions, e ∈ store'.executions

/-- The key stays with the call that has it. -/
structure Keeps (key scope : Text) (store store' : Store Response) : Prop where
  held : ∀ x ∈ store.recordsOf key scope, ∃ y ∈ store'.recordsOf key scope, y.id = x.id
  succeeded : store'.succeeded key scope = store.succeeded key scope

theorem Unrun.frame (h : Unrun store k) (hframe : Frame key scope k store store') :
    Unrun store' k :=
  fun e he hcall => h e (hframe.runs e he hcall) hcall

theorem AllThrew.frame (h : AllThrew store k) (hframe : Frame key scope k store store') :
    AllThrew store' k :=
  fun e he hcall => h e (hframe.runs e he hcall) hcall

theorem Frame.succeeded (h : Frame key scope k store store') :
    ∀ e ∈ store.succeeded key scope, e ∈ store'.succeeded key scope := by
  intro e he
  rcases List.mem_filter.1 he with ⟨hmem, hok⟩
  exact List.mem_filter.2 ⟨h.grows e hmem, hok⟩

theorem Holds.frame {r : KeyedRequest Body} {rid : RecordId} (h : Holds key scope store r rid)
    (hframe : Frame key scope k store store') (hkeeps : r.on key scope → Keeps key scope store store') :
    Holds key scope store' r rid := by
  refine ⟨lt_of_lt_of_le h.bound hframe.nextId, ?_, ?_⟩
  · intro hon
    rcases h.own hon with ⟨x, hx, rfl⟩
    exact (hkeeps hon).held x hx
  · intro hon x hx hid
    rcases hframe.records x hx (by rw [hid]; exact h.bound) with ⟨y, hy, hEq⟩
    exact h.foreign hon y hy (hEq.trans hid)

theorem Process.Assert.frame (h : q.Assert cfg key scope store k)
    (hframe : Frame key scope k store store')
    (hkeeps : q.owner key scope → Keeps key scope store store') :
    q.Assert cfg key scope store' k := by
  cases q with
  | handleUnkeyed request => exact h
  | purgeExpired r now => exact fun hon => (h hon).frame hframe
  | findOne r now => exact fun hon => (h hon).frame hframe
  | deleteExpired r now existing => exact ⟨h.1, h.2.frame hframe fun hon => absurd hon h.1⟩
  | insert r now => exact fun hon => (h hon).frame hframe
  | handle r record =>
      rcases h with ⟨hof, hstatus, hholds, hrun⟩
      refine ⟨hof, hstatus, hholds.frame hframe hkeeps, ?_⟩
      intro hon
      rw [(hkeeps hon).succeeded]
      exact ⟨(hrun hon).1, (hrun hon).2.frame hframe⟩
  | complete r record body =>
      rcases h with ⟨hof, hstatus, hholds, hrun⟩
      refine ⟨hof, hstatus, hholds.frame hframe hkeeps, ?_⟩
      intro hon
      rw [(hkeeps hon).succeeded]
      exact hrun hon
  | release r record error =>
      rcases h with ⟨hholds, hrun⟩
      refine ⟨hholds.frame hframe hkeeps, ?_⟩
      intro hon
      rw [(hkeeps hon).succeeded]
      rcases hrun hon with ⟨hstatus, hnone, hthrew⟩ | hran
      · exact Or.inl ⟨hstatus, hnone, hthrew.frame hframe⟩
      · exact Or.inr hran

theorem Answer.Served.frame {a : Answer Body Response} (h : a.Served cfg key scope store k)
    (hframe : Frame key scope k store store') : a.Served cfg key scope store' k := by
  intro hkey hscope
  rcases h hkey hscope with ⟨e, he, hcall⟩ | ⟨e, he, hout, hunrun⟩ | ⟨herror, hthrew⟩
  · exact Or.inl ⟨e, hframe.succeeded e he, hcall⟩
  · exact Or.inr (Or.inl ⟨e, hframe.succeeded e he, hout, hunrun.frame hframe⟩)
  · exact Or.inr (Or.inr ⟨herror, hthrew.frame hframe⟩)

/-- The owner of a key has its record. -/
theorem Process.Assert.recordsOf_ne_nil (h : q.Assert cfg key scope store k)
    (howner : q.owner key scope) : ∃ x, x ∈ store.recordsOf key scope := by
  cases q with
  | handle r record =>
      rcases h.2.2.1.own howner with ⟨x, hx, _⟩
      exact ⟨x, hx⟩
  | complete r record body =>
      rcases h.2.2.1.own howner with ⟨x, hx, _⟩
      exact ⟨x, hx⟩
  | release r record error =>
      rcases h.1.own howner with ⟨x, hx, _⟩
      exact ⟨x, hx⟩
  | _ => cases howner

theorem Frame.of_subset (hnext : store.nextId ≤ store'.nextId)
    (hrecords : ∀ x ∈ store'.recordsOf key scope, x ∈ store.recordsOf key scope)
    (hexecutions : store'.executions = store.executions) : Frame key scope k store store' := by
  refine ⟨hnext, fun x hx _ => ⟨x, hrecords x hx, rfl⟩, ?_, ?_⟩
  · rw [hexecutions]
    exact fun e he _ => he
  · rw [hexecutions]
    exact fun e he => he

theorem Frame.log {e : Execution Response} (hne : e.call ≠ k) :
    Frame key scope k store (store.log e) := by
  refine ⟨le_refl _, fun x hx _ => ⟨x, hx, rfl⟩, ?_, fun _ => List.mem_cons_of_mem _⟩
  intro f hf hcall
  rcases List.mem_cons.1 hf with rfl | hf
  · exact absurd hcall hne
  · exact hf

theorem Keeps.of_same (hrecords : store'.recordsOf key scope = store.recordsOf key scope)
    (hsucceeded : store'.succeeded key scope = store.succeeded key scope) :
    Keeps key scope store store' := by
  refine ⟨?_, hsucceeded⟩
  rw [hrecords]
  exact fun x hx => ⟨x, hx, rfl⟩

theorem Slot.of_same (h : Slot cfg key scope store) (hnumbered : store'.Numbered)
    (hrecords : store'.recordsOf key scope = store.recordsOf key scope)
    (hsucceeded : store'.succeeded key scope = store.succeeded key scope) :
    Slot cfg key scope store' := by
  refine ⟨hnumbered, ?_, ?_, ?_, ?_⟩
  · rw [hrecords]
    exact h.single
  · rw [hsucceeded]
    exact h.once
  · rw [hrecords, hsucceeded]
    exact h.held
  · rw [hrecords, hsucceeded]
    exact h.response

/-- A handler that failed, or that ran for another key, does not count. -/
theorem succeeded_log {e : Execution Response} (h : e.succeeded key scope = false) :
    (store.log e).succeeded key scope = store.succeeded key scope := by
  simp [Store.succeeded, Store.log, h]

theorem succeeded_log_of {e : Execution Response} (h : e.succeeded key scope = true) :
    (store.log e).succeeded key scope = e :: store.succeeded key scope := by
  simp [Store.succeeded, Store.log, h]

end Frames

/-! ## One step -/

section Steps

variable {cfg : Config Body Response} {key scope : Text} {store store' : Store Response}
  {k id : CallId} {p q : Process Body Response} {reply : Reply Response}
  {flow : Flow (Process Body Response) (Answer Body Response)}

/-- The obligations of a step of the call `id`, for this key. -/
abbrev Serves (cfg : Config Body Response) (key scope : Text) (p : Process Body Response)
    (id : CallId) (store store' : Store Response)
    (flow : Flow (Process Body Response) (Answer Body Response)) : Prop :=
  Goes (Slot cfg key scope) (fun store id q => q.Assert cfg key scope store id)
    (Process.Apart key scope) Unrun (fun store id a => a.Served cfg key scope store id)
    (fun q => q.Apart key scope p) id store store' flow

theorem serves_of (hI : Slot cfg key scope store')
    (hself : flow.Awaits (Process.Assert cfg key scope store' id))
    (hanswer : flow.Answers (Answer.Served cfg key scope store' id))
    (hframe : ∀ k, k ≠ id → Frame key scope k store store')
    (hothers : ∀ k (q : Process Body Response), k ≠ id → q.Assert cfg key scope store k →
      q.Apart key scope p → (q.owner key scope → Keeps key scope store store') ∧
        flow.Awaits (q.Apart key scope)) :
    Serves cfg key scope p id store store' flow where
  store := hI
  self := hself
  answer := hanswer
  others := by
    intro k q hk hq hapart
    exact ⟨hq.frame (hframe k hk) (hothers k q hk hq hapart).1, (hothers k q hk hq hapart).2⟩
  fresh := fun k hk hunrun => hunrun.frame (hframe k hk)
  answered := fun k a hk ha => ha.frame (hframe k hk)

/-- A step that does not touch the records and the successes of the key. -/
theorem serves_of_same (hI : Slot cfg key scope store) (hnumbered : store'.Numbered)
    (hrecords : store'.recordsOf key scope = store.recordsOf key scope)
    (hsucceeded : store'.succeeded key scope = store.succeeded key scope)
    (hframe : ∀ k, k ≠ id → Frame key scope k store store')
    (hself : flow.Awaits (Process.Assert cfg key scope store' id))
    (hanswer : flow.Answers (Answer.Served cfg key scope store' id))
    (howner : flow.Awaits fun next => next.owner key scope → p.owner key scope) :
    Serves cfg key scope p id store store' flow := by
  refine serves_of (hI.of_same hnumbered hrecords hsucceeded) hself hanswer hframe ?_
  intro k q hk hq hapart
  refine ⟨fun _ => .of_same hrecords hsucceeded, ?_⟩
  -- who owns the key afterwards owned it before
  cases flow with
  | await next => exact fun hboth => hapart ⟨hboth.1, howner hboth.2⟩
  | answer a => trivial

theorem serves_of_unchanged (hI : Slot cfg key scope store)
    (hself : flow.Awaits (Process.Assert cfg key scope store id))
    (hanswer : flow.Answers (Answer.Served cfg key scope store id))
    (howner : flow.Awaits fun next => next.owner key scope → p.owner key scope) :
    Serves cfg key scope p id store store flow :=
  serves_of_same hI hI.numbered rfl rfl (fun _ _ => .of_subset (le_refl _) (fun _ hx => hx) rfl)
    hself hanswer howner

theorem served_of_request {r : KeyedRequest Body} {outcome : Outcome Response}
    (h : r.on key scope → Served cfg key scope store id outcome) :
    Answer.Served cfg key scope store id { request := r.request, outcome } := by
  intro hkey hscope
  exact h ⟨Option.some.inj (r.carries.symm.trans hkey), hscope⟩

theorem rejects_served {r : KeyedRequest Body} {error : Failure}
    (h : r.on key scope → Unrun store id) :
    (rejects r.request error).Answers (Answer.Served cfg key scope store id) :=
  served_of_request fun hon => Or.inr (Or.inr ⟨⟨error, rfl⟩, (h hon).allThrew⟩)

theorem Proceeds.answers {r : KeyedRequest Body} {next : Process Body Response}
    (h : Proceeds r next flow) (hunrun : r.on key scope → Unrun store id) :
    flow.Answers (Answer.Served cfg key scope store id) := by
  rcases h with rfl | ⟨error, rfl⟩
  · trivial
  · exact rejects_served hunrun

theorem Proceeds.awaits {r : KeyedRequest Body} {next : Process Body Response}
    {A : Process Body Response → Prop} (h : Proceeds r next flow) (hA : A next) : flow.Awaits A := by
  rcases h with rfl | ⟨error, rfl⟩
  · exact hA
  · trivial

/-- A call that is still asking for the key has not run its handler. -/
theorem Process.Assert.unrun {r : KeyedRequest Body} (h : p.Assert cfg key scope store id)
    (hasking : p.asking? = some r) (hon : r.on key scope) : Unrun store id := by
  cases p with
  | purgeExpired r' now =>
      cases hasking
      exact h hon
  | findOne r' now =>
      cases hasking
      exact h hon
  | deleteExpired r' now existing =>
      cases hasking
      exact absurd hon h.1
  | insert r' now =>
      cases hasking
      exact h hon
  | _ => cases hasking

/-- `begin` finds a record: it is within its TTL if it is the one of the key. -/
theorem found_serves {r : KeyedRequest Body} {now : Time} (hI : Slot cfg key scope store)
    (hunrun : r.on key scope → Unrun store id)
    (httl : r.on key scope → ∀ existing, store.findOne key scope = some existing →
      ¬ existing.expiresAt ≤ now) :
    Serves cfg key scope (.findOne r now) id store store
      (found cfg r now (store.findOne r.key r.scope)) := by
  cases hfind : store.findOne r.key r.scope with
  | none =>
      refine serves_of_unchanged hI hunrun trivial ?_
      exact fun howner => howner
  | some existing =>
      have hmem := mem_recordsOf.1 (mem_recordsOf_of_findOne hfind)
      simp only [found]
      split
      · rename_i hexpired
        have hon : ¬ r.on key scope := by
          intro hon
          rw [hon.1, hon.2] at hfind
          exact httl hon existing hfind hexpired
        refine serves_of_unchanged hI ⟨hon, hI.numbered.bound _ hmem.1, ?_, ?_⟩ trivial ?_
        · exact fun hon' => absurd hon' hon
        · intro _ x hx hid
          rcases mem_recordsOf.1 hx with ⟨hxmem, hxkey, hxscope⟩
          -- a record under the same id is the one found, which is not of this key
          have hEq := hI.numbered.keyed.eq_of_key hxmem hmem.1 hid
          subst hEq
          exact hon ⟨hmem.2.1.symm.trans hxkey, hmem.2.2.symm.trans hxscope⟩
        · exact fun howner => howner
      · split
        · exact serves_of_unchanged hI trivial (rejects_served hunrun) trivial
        · split
          · exact serves_of_unchanged hI trivial (rejects_served hunrun) trivial
          · rename_i hcompleted
            refine serves_of_unchanged hI trivial (served_of_request fun hon => ?_) trivial
            rw [hon.1, hon.2] at hfind
            -- a completed record carries what the one successful handler returned
            rcases hI.response existing (mem_recordsOf_of_findOne hfind) (by simpa using hcompleted)
              with ⟨e, he, hbody⟩
            exact Or.inr (Or.inl ⟨e, he, by rw [hbody], hunrun hon⟩)

/-- The unique index gives the key to one call at a time. -/
theorem insert_serves {r : KeyedRequest Body} {now : Time} (hI : Slot cfg key scope store)
    (hunrun : r.on key scope → Unrun store id)
    (hfree : store.taken (newRecord cfg store.nextId r now) = false)
    (hflow : Proceeds r (.handle r (newRecord cfg store.nextId r now)) flow) :
    Serves cfg key scope (.insert r now) id store
      (store.insert (newRecord cfg store.nextId r now)) flow := by
  have hnumbered : (store.insert (newRecord cfg store.nextId r now)).Numbered :=
    hI.numbered.insert rfl
  have hanswer : flow.Answers (Answer.Served cfg key scope
      (store.insert (newRecord cfg store.nextId r now)) id) := hflow.answers hunrun
  by_cases hon : r.on key scope
  · -- nobody holds the key, so no handler has succeeded and no call owns it
    have hempty : ∀ x, x ∉ store.recordsOf key scope := by
      intro x hx
      have hid := id_of_not_taken hfree hon.1 hon.2 hx
      exact absurd (hI.numbered.bound x (mem_recordsOf.1 hx).1) (by rw [hid]; exact lt_irrefl _)
    have hsucceeded : store.succeeded key scope = [] := by
      refine List.eq_nil_iff_forall_not_mem.2 ?_
      intro e he
      rcases hI.held e he with ⟨x, hx⟩
      exact hempty x hx
    have hof : (newRecord cfg store.nextId r now).key = key ∧
        (newRecord cfg store.nextId r now).scope = scope := hon
    have hrecords : (store.insert (newRecord cfg store.nextId r now)).recordsOf key scope =
        [newRecord cfg store.nextId r now] := by
      rw [recordsOf_insert hof, List.eq_nil_iff_forall_not_mem.2 hempty]
    have hslot : Slot cfg key scope (store.insert (newRecord cfg store.nextId r now)) := by
      refine ⟨hnumbered, ?_, hI.once, ?_, ?_⟩
      · rw [hrecords]
        simp
      · exact fun e _ => ⟨_, by rw [hrecords]; exact List.mem_singleton_self _⟩
      · rw [hrecords]
        intro x hx hcompleted
        rw [List.mem_singleton.1 hx] at hcompleted
        cases hcompleted
    refine serves_of hslot (hflow.awaits ?_) hanswer ?_ ?_
    · refine ⟨⟨rfl, rfl⟩, rfl, ⟨Nat.lt_succ_self _, ?_, fun h => absurd hon h⟩, ?_⟩
      · exact fun _ => ⟨_, by rw [hrecords]; exact List.mem_singleton_self _, rfl⟩
      · exact fun h => ⟨hsucceeded, hunrun h⟩
    · intro k hk
      refine ⟨Nat.le_succ _, ?_, fun _ he _ => he, fun _ he => he⟩
      rw [hrecords]
      intro x hx hlt
      rw [List.mem_singleton.1 hx] at hlt
      exact absurd hlt (lt_irrefl _)
    · intro k q hk hq _
      have hnot : ¬ q.owner key scope := by
        intro howner
        rcases hq.recordsOf_ne_nil howner with ⟨x, hx⟩
        exact hempty x hx
      exact ⟨fun howner => absurd howner hnot, hflow.awaits fun hboth => hnot hboth.1⟩
  · have hother : ¬ ((newRecord cfg store.nextId r now).key = key ∧
        (newRecord cfg store.nextId r now).scope = scope) := hon
    have hrecords : (store.insert (newRecord cfg store.nextId r now)).recordsOf key scope =
        store.recordsOf key scope := recordsOf_insert_of_ne hother
    refine serves_of_same hI hnumbered hrecords rfl ?_ (hflow.awaits ?_) hanswer
      (hflow.awaits fun howner => absurd howner hon)
    · intro k hk
      exact .of_subset (Nat.le_succ _) (fun x hx => by rwa [hrecords] at hx) rfl
    · refine ⟨⟨rfl, rfl⟩, rfl, ⟨Nat.lt_succ_self _, fun h => absurd h hon, ?_⟩, fun h => absurd h hon⟩
      rw [hrecords]
      intro _ x hx
      exact (hI.numbered.bound x (mem_recordsOf.1 hx).1).ne

/-- The handler of a call ends. -/
theorem handle_serves {r : KeyedRequest Body} {record : IdempotencyRecord Response}
    {result : Result Response} (hI : Slot cfg key scope store)
    (hp : (Process.handle r record).Assert cfg key scope store id) :
    Serves cfg key scope (.handle r record) id store
      (store.log { call := id, key := some r.key, scope := r.scope, result })
      (afterHandle cfg r record result) := by
  rcases hp with ⟨hof, hstatus, hholds, hrun⟩
  have hframe : ∀ k, k ≠ id → Frame key scope k store
      (store.log { call := id, key := some r.key, scope := r.scope, result }) :=
    fun k hk => .log (Ne.symm hk)
  have hholds' : Holds key scope
      (store.log { call := id, key := some r.key, scope := r.scope, result }) r record.id :=
    ⟨hholds.bound, hholds.own, hholds.foreign⟩
  cases result with
  | threw error =>
      -- a handler that threw has not succeeded, and the record is still pending
      refine serves_of_same hI ⟨hI.numbered.keyed, hI.numbered.bound⟩ rfl
        (succeeded_log (by simp [Execution.succeeded, Result.isReturned])) hframe ⟨hholds', ?_⟩ trivial
        (fun howner => howner)
      intro hon
      refine Or.inl ⟨hstatus, ?_, ?_⟩
      · rw [succeeded_log (by simp [Execution.succeeded, Result.isReturned])]
        exact (hrun hon).1
      · intro e he hcall
        rcases List.mem_cons.1 he with rfl | he
        · rfl
        · exact absurd hcall ((hrun hon).2 e he)
  | returned body =>
      by_cases hon : r.on key scope
      · -- the call owns the key: no handler has succeeded before, and no other call is about to
        have hsucceeded : (store.log
            { call := id, key := some r.key, scope := r.scope, result := .returned body }).succeeded
              key scope =
            [{ call := id, key := some r.key, scope := r.scope, result := .returned body }] := by
          rw [succeeded_log_of, (hrun hon).1]
          simp [Execution.succeeded, hon.1, hon.2, Result.isReturned]
        refine serves_of ?_ ?_ trivial hframe ?_
        · refine ⟨⟨hI.numbered.keyed, hI.numbered.bound⟩, hI.single, ?_, ?_, ?_⟩
          · rw [hsucceeded]
            exact le_refl _
          · intro e _
            rcases hholds.own hon with ⟨x, hx, _⟩
            exact ⟨x, hx⟩
          · intro x hx hcompleted
            rcases hI.response x hx hcompleted with ⟨e, he, _⟩
            rw [(hrun hon).1] at he
            cases he
        · refine ⟨hof, rfl, hholds', fun _ => ?_⟩
          rw [hsucceeded]
          exact ⟨_, List.mem_singleton_self _, rfl, rfl⟩
        · intro k q hk hq hapart
          have hnot : ¬ q.owner key scope := fun howner => hapart ⟨howner, hon⟩
          exact ⟨fun howner => absurd howner hnot, fun hboth => hnot hboth.1⟩
      · refine serves_of_same hI ⟨hI.numbered.keyed, hI.numbered.bound⟩ rfl (succeeded_log ?_) hframe
          ⟨hof, rfl, hholds', fun h => absurd h hon⟩ trivial (fun howner => howner)
        have hne : ¬ (r.key = key ∧ r.scope = scope) := hon
        simpa [Execution.succeeded, Result.isReturned] using hne

/-! After the response is stored the call answers, or, if the store reports an error after all, goes on
to release the key. -/

theorem awaits_saved {answer : Answer Body Response} {r : KeyedRequest Body}
    {record : IdempotencyRecord Response} {A : Process Body Response → Prop}
    (hflow : flow = .answer answer ∨ ∃ error, flow = .await (.release r record error))
    (hA : ∀ error, A (.release r record error)) : flow.Awaits A := by
  rcases hflow with rfl | ⟨error, rfl⟩
  · trivial
  · exact hA error

theorem answers_saved {answer : Answer Body Response} {next : Failure → Process Body Response}
    {Q : Answer Body Response → Prop}
    (hflow : flow = .answer answer ∨ ∃ error, flow = .await (next error)) (hQ : Q answer) :
    flow.Answers Q := by
  rcases hflow with rfl | ⟨error, rfl⟩
  · exact hQ
  · trivial

/-- `complete` stores the response of the handler. -/
theorem save_serves {r : KeyedRequest Body} {record : IdempotencyRecord Response}
    {body : Option Response} (hI : Slot cfg key scope store)
    (hp : (Process.complete r record body).Assert cfg key scope store id)
    (hflow : flow = .answer { request := r.request, outcome := .response body } ∨
      ∃ error, flow = .await (.release r record error)) :
    Serves cfg key scope (.complete r record body) id store (store.save record) flow := by
  rcases hp with ⟨hof, hstatus, hholds, hrun⟩
  have hnumbered := hI.numbered.save hholds.bound
  by_cases hon : r.on key scope
  · rcases hrun hon with ⟨e, he, hcall, hbody⟩
    have hids : ∀ x ∈ store.recordsOf key scope, x.id = record.id := by
      rcases hholds.own hon with ⟨y, hy, hid⟩
      exact fun x hx => (hI.single x hx y hy).trans hid
    -- the call owns the key, so its record is the only one
    have halone : (store.save record).recordsOf key scope = [record] := by
      rw [recordsOf_save ⟨hof.1.trans hon.1, hof.2.trans hon.2⟩]
      refine congrArg _ (List.eq_nil_iff_forall_not_mem.2 ?_)
      intro x hx
      exact (mem_recordsOf_delete.1 hx).2 (hids x (mem_recordsOf_delete.1 hx).1)
    have hslot : Slot cfg key scope (store.save record) := by
      refine ⟨hnumbered, ?_, hI.once, ?_, ?_⟩
      · rw [halone]
        simp
      · exact fun _ _ => ⟨record, by rw [halone]; exact List.mem_singleton_self _⟩
      · rw [halone]
        intro x hx _
        rw [List.mem_singleton.1 hx]
        exact ⟨e, he, hbody⟩
    have hholds' : Holds key scope (store.save record) r record.id := by
      refine ⟨hholds.bound, ?_, fun h => absurd hon h⟩
      exact fun _ => ⟨record, by rw [halone]; exact List.mem_singleton_self _, rfl⟩
    have hself : flow.Awaits (Process.Assert cfg key scope (store.save record) id) :=
      awaits_saved hflow fun _ => ⟨hholds', fun _ => Or.inr ⟨hstatus, e, he, hcall⟩⟩
    have hanswer : flow.Answers (Answer.Served cfg key scope (store.save record) id) :=
      answers_saved hflow (served_of_request fun _ => Or.inl ⟨e, he, hcall⟩)
    refine serves_of hslot hself hanswer ?_ ?_
    · intro k hk
      refine ⟨le_refl _, ?_, fun _ he _ => he, fun _ he => he⟩
      rw [halone]
      intro x hx _
      rw [List.mem_singleton.1 hx]
      exact hholds.own hon
    · intro k q hk hq hapart
      have hnot : ¬ q.owner key scope := fun howner => hapart ⟨howner, hon⟩
      exact ⟨fun howner => absurd howner hnot, awaits_saved hflow fun _ hboth => hnot hboth.1⟩
  · have hother : ¬ (record.key = key ∧ record.scope = scope) := by
      rw [hof.1, hof.2]
      exact hon
    have hrecords : (store.save record).recordsOf key scope = store.recordsOf key scope := by
      rw [recordsOf_save_of_ne hother, recordsOf_delete (hholds.foreign hon)]
    have hholds' : Holds key scope (store.save record) r record.id := by
      refine ⟨hholds.bound, fun h => absurd h hon, ?_⟩
      rw [hrecords]
      exact hholds.foreign
    have hself : flow.Awaits (Process.Assert cfg key scope (store.save record) id) :=
      awaits_saved hflow fun _ => ⟨hholds', fun h => absurd h hon⟩
    have hanswer : flow.Answers (Answer.Served cfg key scope (store.save record) id) :=
      answers_saved hflow (served_of_request fun h => absurd h hon)
    refine serves_of_same hI hnumbered hrecords rfl ?_ hself hanswer
      (awaits_saved hflow fun _ howner => howner)
    intro k hk
    exact .of_subset (le_refl _) (fun x hx => by rwa [hrecords] at hx) rfl

/-- The key is released after a handler that failed. -/
theorem release_serves {r : KeyedRequest Body} {record : IdempotencyRecord Response}
    {error other : Failure} (hI : Slot cfg key scope store)
    (hp : (Process.release r record error).Assert cfg key scope store id)
    (hkept : ¬ (r.on key scope ∧ record.status = .completed)) :
    Serves cfg key scope (.release r record error) id store (store.delete record.id)
      (rejects r.request other) := by
  rcases hp with ⟨hholds, hrun⟩
  have hframe : ∀ k, k ≠ id → Frame key scope k store (store.delete record.id) :=
    fun k _ => .of_subset (le_refl _) (fun x hx => (mem_recordsOf_delete.1 hx).1) rfl
  by_cases hon : r.on key scope
  · -- released after a failure, or after a success that could not be stored
    rcases hrun hon with ⟨_, hnone, hthrew⟩ | ⟨hstatus, _⟩
    · have hempty : (store.delete record.id).recordsOf key scope = [] := by
        refine List.eq_nil_iff_forall_not_mem.2 ?_
        intro x hx
        rcases hholds.own hon with ⟨y, hy, hid⟩
        rcases mem_recordsOf_delete.1 hx with ⟨hx, hne⟩
        exact hne ((hI.single x hx y hy).trans hid)
      refine serves_of ⟨hI.numbered.delete _, ?_, hI.once, ?_, ?_⟩ trivial ?_ hframe ?_
      · rw [hempty]
        simp
      · intro e he
        have hmem : e ∈ store.succeeded key scope := he
        rw [hnone] at hmem
        cases hmem
      · rw [hempty]
        simp
      · exact served_of_request fun _ => Or.inr (Or.inr ⟨⟨other, rfl⟩, hthrew⟩)
      · intro k q hk hq hapart
        exact ⟨fun howner => absurd ⟨howner, hon⟩ hapart, trivial⟩
    · exact absurd ⟨hon, hstatus⟩ hkept
  · exact serves_of_same hI (hI.numbered.delete _) (recordsOf_delete (hholds.foreign hon)) rfl hframe
      trivial (served_of_request fun h => absurd h hon) trivial

theorem Resumes.serves (h : Resumes cfg id store p reply store' flow)
    (hI : Slot cfg key scope store) (hp : p.Assert cfg key scope store id)
    (httl : withinTtl key scope p reply store = true) (hkept : keyKept key scope p reply = true) :
    Serves cfg key scope p id store store' flow := by
  cases h with
  | @unkeyed request result =>
      refine serves_of_same hI ⟨hI.numbered.keyed, hI.numbered.bound⟩ rfl
        (succeeded_log (by simp [Execution.succeeded])) (fun k hk => .log (Ne.symm hk)) trivial ?_
        trivial
      intro hkey _
      have hnone : request.key? = none := hp
      rw [hnone] at hkey
      cases hkey
  | rejected hasking =>
      exact serves_of_unchanged hI trivial (rejects_served (hp.unrun hasking)) trivial
  | @purged r now _ _ hflow =>
      -- no record of the key is past its TTL
      have hrecords : (store.purge now).recordsOf key scope = store.recordsOf key scope := by
        refine recordsOf_purge ?_
        intro x hx hlt
        rcases mem_recordsOf.1 hx with ⟨hmem, hkey, hscope⟩
        have hlive := List.all_eq_true.1 httl x hmem
        simp [hkey, hscope, hlt] at hlive
      exact serves_of_same hI (hI.numbered.purge now) hrecords rfl
        (fun k _ => .of_subset (le_refl _) (fun x hx => by rwa [hrecords] at hx) rfl)
        (hflow.awaits hp) (hflow.answers hp) (hflow.awaits fun howner => howner)
  | @found r now _ =>
      refine found_serves hI hp ?_
      intro hon existing hfind
      simpa [withinTtl, hon, hfind] using httl
  | @dropped r now existing _ _ hflow =>
      have hrecords := recordsOf_delete (hp.2.foreign hp.1)
      exact serves_of_same hI (hI.numbered.delete _) hrecords rfl
        (fun k _ => .of_subset (le_refl _) (fun x hx => by rwa [hrecords] at hx) rfl)
        (hflow.awaits fun hon => absurd hon hp.1) (hflow.answers fun hon => absurd hon hp.1)
        (hflow.awaits fun howner => howner)
  | inserted hfree hflow => exact insert_serves hI hp hfree hflow
  | handled => exact handle_serves hI hp
  | saved hfree hflow => exact save_serves hI hp hflow
  | unsaved =>
      rcases hp with ⟨hof, hstatus, hholds, hrun⟩
      refine serves_of_unchanged hI ⟨hholds, fun hon => ?_⟩ trivial (fun howner => howner)
      rcases hrun hon with ⟨e, he, hcall, _⟩
      exact Or.inr ⟨hstatus, e, he, hcall⟩
  | released hreply =>
      refine release_serves hI hp ?_
      cases reply with
      | failed message => exact absurd rfl (hreply message)
      | _ => exact of_decide_eq_true hkept
  | @unreleased r record error other _ =>
      refine serves_of_unchanged hI trivial (served_of_request fun hon => ?_) trivial
      rcases hp.2 hon with ⟨_, _, hthrew⟩ | ⟨_, hran⟩
      · exact Or.inr (Or.inr ⟨⟨other, rfl⟩, hthrew⟩)
      · exact Or.inl hran

/-- Before its first wait a call only notes the time of the purge. -/
theorem Starts.serves {r : Request Body} (h : Starts r store store' flow)
    (hI : Slot cfg key scope store) (hunrun : Unrun store id) :
    Serves cfg key scope (.handleUnkeyed r) id store store' flow := by
  cases h with
  | unkeyed hnone => exact serves_of_unchanged hI hnone trivial (fun howner => howner)
  | rejected =>
      exact serves_of_unchanged hI trivial
        (fun _ _ => Or.inr (Or.inr ⟨⟨_, rfl⟩, hunrun.allThrew⟩)) trivial
  | asks carries =>
      exact serves_of_unchanged hI (fun _ => hunrun) trivial (fun howner => howner)
  | purges carries =>
      exact serves_of_same hI ⟨hI.numbered.keyed, hI.numbered.bound⟩ rfl rfl
        (fun _ _ => .of_subset (le_refl _) (fun _ hx => hx) rfl) (fun _ => hunrun) trivial
        (fun howner => howner)

end Steps

/-! ## Every run -/

theorem once_lifecycle (cfg : Config Body Response) (key scope : Text) :
    Lifecycle (onceService cfg key scope) (Slot cfg key scope)
      (fun store id q => q.Assert cfg key scope store id) (Process.Apart key scope) Unrun
      (fun store id a => a.Served cfg key scope store id) where
  symm := fun p q h hboth => h ⟨hboth.2, hboth.1⟩
  start := by
    intro id r store hI hunrun
    have h : Serves cfg key scope (.handleUnkeyed r) id store (start r store).1 (start r store).2 :=
      (starts_of_start r store).serves hI hunrun
    exact ⟨h.store, h.self, h.answer, fun k q hk hq _ => h.others k q hk hq fun hboth => hboth.2,
      h.fresh, h.answered⟩
  resume := by
    intro id p reply store store' flow hI hp h
    rcases Service.restrict_resume.1 h with ⟨⟨httl, hkept⟩, hresume⟩
    exact (resumes_of_resume hresume).serves hI hp httl hkept
  external := by
    intro e store store' hI h
    cases e with
    | clock now =>
        cases h
        have hframe : ∀ k, Frame key scope k store { store with now } :=
          fun _ => .of_subset (le_refl _) (fun _ hx => hx) rfl
        refine ⟨hI.of_same ⟨hI.numbered.keyed, hI.numbered.bound⟩ rfl rfl, ?_, ?_, ?_⟩
        · exact fun k q hq => hq.frame (hframe k) fun _ => .of_same rfl rfl
        · exact fun k hk => hk.frame (hframe k)
        · exact fun k a ha => ha.frame (hframe k)

theorem empty_slot (cfg : Config Body Response) (key scope : Text) : Slot cfg key scope .empty := by
  refine ⟨⟨List.nodup_nil, ?_⟩, ?_, Nat.zero_le _, ?_, ?_⟩
  · intro x hx
    cases hx
  · intro x hx
    cases hx
  · intro e he
    cases he
  · intro x hx
    cases hx

/-- In every run in which a key is not released after its handler has succeeded, at most one handler
succeeds under the key on a route; every answered request with the key is the one that ran it, gets
the stored response of that one without running a handler, or gets an error, having run no handler
or one that failed. -/
theorem mutation_runs_once {cfg : Config Body Response} {key scope : Text}
    {moves : List (Move (Request Body) (Reply Response) Event)}
    {c : Calls (Store Response) (Process Body Response) (Answer Body Response)}
    (h : run (onceService cfg key scope).step moves (.start .empty) = some c) :
    (c.store.succeeded key scope).length ≤ 1 ∧
      ∀ id answer, c.answered id = some answer → answer.request.key? = some key →
        answer.request.scope = scope → Served cfg key scope c.store id answer.outcome := by
  have hfresh : ∀ id, Unrun (Store.empty : Store Response) id := by
    intro id e he
    cases he
  have hc := (once_lifecycle cfg key scope).run (.start (empty_slot cfg key scope) hfresh) h
  refine ⟨hc.annotated.store.once, ?_⟩
  intro id answer hanswer hkey hscope
  exact hc.answered id answer hanswer hkey hscope

/-- The TTL is a day. -/
def sampleConfig : Config Nat Nat where
  ttlMs := 86400000
  hashBody body := (toString body).toList
  jsonForm response := response

/-- An instance receives `POST /escrow` with the key `key-1`. -/
def retried (server : Nat) : Request Nat where
  server := server
  method := "POST".toList
  path := "/escrow".toList
  idempotencyKey := some (.one "key-1".toList)
  body := 5

/-- Two instances race for the key, a third request comes while the handler runs, a fourth one after
its response has been stored. -/
def raced : List (Move (Request Nat) (Reply Nat) Event) :=
  [.call 0 (retried 0), .call 1 (retried 1), .resume 0 .done, .resume 1 .done, .resume 0 .done,
    .resume 1 .done, .resume 0 (.handled (.returned (some 7))), .call 2 (retried 1),
    .resume 2 .done, .resume 0 .done, .call 3 (retried 1), .resume 3 .done]

theorem mutation_runs_once_raced :
    ∃ c answer, run (onceService sampleConfig "key-1".toList "POST /escrow".toList).step raced
        (.start .empty) = some c ∧
      (c.store.succeeded "key-1".toList "POST /escrow".toList).length ≤ 1 ∧
      c.answered 3 = some answer ∧ answer.outcome = .replayed (some 7) ∧
      Served sampleConfig "key-1".toList "POST /escrow".toList c.store 3 answer.outcome := by
  have hreached : ((run (onceService sampleConfig "key-1".toList "POST /escrow".toList).step raced
      (.start .empty)).any fun c => (c.answered 3).any fun answer =>
        answer.request.key? = some "key-1".toList && answer.request.scope = "POST /escrow".toList &&
          answer.outcome = .replayed (some 7)) = true := by
    decide +kernel
  rcases (Option.any_eq_true _ _).1 hreached with ⟨c, hc, hany⟩
  rcases (Option.any_eq_true _ _).1 hany with ⟨answer, hanswer, hstate⟩
  rcases Bool.and_eq_true_iff.1 hstate with ⟨hrequest, houtcome⟩
  rcases Bool.and_eq_true_iff.1 hrequest with ⟨hkey, hscope⟩
  have honce := mutation_runs_once hc
  exact ⟨c, answer, hc, honce.1, hanswer, of_decide_eq_true houtcome,
    honce.2 3 answer hanswer (of_decide_eq_true hkey) (of_decide_eq_true hscope)⟩

/-- The handler succeeds, the save of its response fails, the key is released, and the retry of the
client runs the handler again. -/
def rerun : List (Move (Request Nat) (Reply Nat) Event) :=
  [.call 0 (retried 0), .resume 0 .done, .resume 0 .done,
    .resume 0 (.handled (.returned (some 7))), .resume 0 (.failed "Connection terminated"),
    .resume 0 .done, .call 1 (retried 0), .resume 1 .done, .resume 1 .done,
    .resume 1 (.handled (.returned (some 8)))]

/-- Without the condition two handlers succeed under one key, within the TTL of its record. -/
theorem mutation_runs_twice :
    ¬ ∀ (cfg : Config Nat Nat) (key scope : Text)
      (moves : List (Move (Request Nat) (Reply Nat) Event))
      (c : Calls (Store Nat) (Process Nat Nat) (Answer Nat Nat)),
      run ((service cfg).restrict fun p reply store =>
        withinTtl key scope p reply store = true).step moves (.start .empty) = some c →
        (c.store.succeeded key scope).length ≤ 1 := by
  intro hclaim
  have hreached : ((run ((service sampleConfig).restrict fun p reply store =>
      withinTtl "key-1".toList "POST /escrow".toList p reply store = true).step rerun
      (.start .empty)).any fun c =>
        (c.store.succeeded "key-1".toList "POST /escrow".toList).length = 2) = true := by
    decide +kernel
  rcases (Option.any_eq_true _ _).1 hreached with ⟨c, hc, htwice⟩
  have hle := hclaim _ _ _ rerun c hc
  rw [of_decide_eq_true htwice] at hle
  exact absurd hle (by decide)

end Idempotency
end PaymentRail
