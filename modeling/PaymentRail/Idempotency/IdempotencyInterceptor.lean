import PaymentRail.Machine.Calls
import PaymentRail.Strings.Numeral

/-!
# IdempotencyInterceptor — running a mutation once per `Idempotency-Key`

The interceptor stands in front of every mutation that moves money.  The first request with a key
inserts a record, runs the handler and stores its response; a request that finds the record gets the
stored response, or a conflict while the first one is still running.  The unique index on key and
route is the lock between instances.

Requests wait for the storage and for the handler, and any other request of any instance may move
meanwhile.  A storage operation may also fail, before or after it took effect (`Reply.failed` and
`Reply.lost`).  Bodies and responses are whatever the routes use.
-/

namespace PaymentRail
namespace Idempotency

open Machine Strings Collections

/-- In milliseconds. -/
abbrev Time := Nat

abbrev RecordId := Nat

inductive IdempotencyStatus where
  | inProgress
  | completed
  deriving DecidableEq, Repr

structure IdempotencyRecord (Response : Type) where
  id : RecordId
  key : Text
  scope : Text
  requestHash : Text
  status : IdempotencyStatus
  /-- `none` is null. -/
  responseBody : Option Response
  expiresAt : Time

/-! ## Requests and answers -/

/-- A header of a request; Node gives an array when it was sent several times. -/
inductive Header where
  | one (value : Text)
  | many (first : Text) (rest : List Text)

def Header.key : Header → Text
  | .one value => value
  | .many first _ => first

structure Request (Body : Type) where
  /-- The instance of the service that received it. -/
  server : Nat
  method : Text
  path : Text
  idempotencyKey : Option Header
  body : Body

namespace Request

variable {Body : Type}

def scope (r : Request Body) : Text := r.method ++ ' ' :: r.path

def key? (r : Request Body) : Option Text := r.idempotencyKey.map Header.key

end Request

/-- `/^[\x21-\x7e]{1,255}$/` -/
def keyPattern (key : Text) : Bool :=
  0 < key.length && key.length ≤ 255 && key.all fun char => '!' ≤ char && char ≤ '~'

/-- A request whose key has been read. -/
structure KeyedRequest (Body : Type) where
  request : Request Body
  key : Text
  carries : request.key? = some key

namespace KeyedRequest

variable {Body : Type}

def scope (r : KeyedRequest Body) : Text := r.request.scope

/-- The request is one with this key on this route. -/
def on (r : KeyedRequest Body) (key scope : Text) : Prop := r.key = key ∧ r.scope = scope

instance (r : KeyedRequest Body) (key scope : Text) : Decidable (r.on key scope) :=
  inferInstanceAs (Decidable (_ ∧ _))

end KeyedRequest

inductive Failure where
  /-- An exception with its status. -/
  | http (status : Nat) (message : String)
  /-- An error of the storage. -/
  | storage (message : String)
  deriving DecidableEq, Repr

/-- How a handler ends; it may return undefined. -/
inductive Result (Response : Type) where
  | returned (body : Option Response)
  | threw (error : Failure)

inductive Outcome (Response : Type) where
  | response (body : Option Response)
  /-- The stored response, with the header `Idempotency-Replayed`. -/
  | replayed (body : Option Response)
  | error (error : Failure)
  deriving DecidableEq

def Result.outcome {Response : Type} : Result Response → Outcome Response
  | .returned body => .response body
  | .threw error => .error error

structure Answer (Body Response : Type) where
  request : Request Body
  outcome : Outcome Response

def badKey : Failure := .http 400 "Idempotency-Key must be 1-255 printable ASCII characters"

def otherBody : Failure := .http 422 "Idempotency-Key was already used with a different request body"

def stillInProgress : Failure :=
  .http 409 "A request with this Idempotency-Key is still in progress"

def duplicateKey : Failure :=
  .storage "duplicate key value violates unique constraint \"UQ_idempotency_key_scope\""

/-! ## The store -/

/-- A handler that ran to its end. -/
structure Execution (Response : Type) where
  call : CallId
  key : Option Text
  scope : Text
  result : Result Response

structure Store (Response : Type) where
  records : List (IdempotencyRecord Response)
  nextId : RecordId
  /-- `lastPurgeAt` of each instance. -/
  lastPurgeAt : List (Nat × Time)
  now : Time
  executions : List (Execution Response)

namespace Store

variable {Response : Type}

def empty : Store Response :=
  { records := [], nextId := 0, lastPurgeAt := [], now := 0, executions := [] }

def findOne (store : Store Response) (key scope : Text) : Option (IdempotencyRecord Response) :=
  store.records.find? fun record => record.key = key ∧ record.scope = scope

def purge (store : Store Response) (now : Time) : Store Response :=
  { store with records := store.records.filter fun record => ¬ record.expiresAt < now }

def delete (store : Store Response) (id : RecordId) : Store Response :=
  { store with records := Table.drop IdempotencyRecord.id store.records id }

def insert (store : Store Response) (record : IdempotencyRecord Response) : Store Response :=
  { store with records := record :: store.records, nextId := store.nextId + 1 }

/-- `save` of a record that has an id: an update, or an insert if the row is gone. -/
def save (store : Store Response) (record : IdempotencyRecord Response) : Store Response :=
  { store with records := Table.put IdempotencyRecord.id store.records record }

/-- Another record holds the key on the route. -/
def taken (store : Store Response) (record : IdempotencyRecord Response) : Bool :=
  store.records.any fun other =>
    other.key = record.key ∧ other.scope = record.scope ∧ other.id ≠ record.id

def log (store : Store Response) (execution : Execution Response) : Store Response :=
  { store with executions := execution :: store.executions }

def purgedAt (store : Store Response) (server : Nat) : Time :=
  ((Table.lookup Prod.fst store.lastPurgeAt server).map Prod.snd).getD 0

def setPurged (store : Store Response) (server : Nat) (now : Time) : Store Response :=
  { store with lastPurgeAt := Table.put Prod.fst store.lastPurgeAt (server, now) }

end Store

/-! ## The interceptor -/

structure Config (Body Response : Type) where
  ttlMs : Nat
  /-- sha256 of the canonical JSON of a body, in hexadecimal. -/
  hashBody : Body → Text
  /-- What a response looks like to the client. -/
  jsonForm : Response → Response

def purgeIntervalMs : Nat := 60 * 60 * 1000

inductive Process (Body Response : Type) where
  /-- The handler of a request without a key. -/
  | handleUnkeyed (request : Request Body)
  | purgeExpired (r : KeyedRequest Body) (now : Time)
  | findOne (r : KeyedRequest Body) (now : Time)
  | deleteExpired (r : KeyedRequest Body) (now : Time) (existing : IdempotencyRecord Response)
  | insert (r : KeyedRequest Body) (now : Time)
  | handle (r : KeyedRequest Body) (record : IdempotencyRecord Response)
  | complete (r : KeyedRequest Body) (record : IdempotencyRecord Response) (body : Option Response)
  | release (r : KeyedRequest Body) (record : IdempotencyRecord Response) (error : Failure)

inductive Reply (Response : Type) where
  | done
  /-- The operation failed and has not been applied. -/
  | failed (message : String)
  /-- The operation has been applied, but its acknowledgement was lost. -/
  | lost (message : String)
  /-- The handler has ended. -/
  | handled (result : Result Response)

inductive Event where
  /-- The clock shows another time; the clocks of two instances may differ. -/
  | clock (now : Time)

section Interceptor

variable {Body Response : Type}

/-- What follows from a storage operation that takes `store` to `after`. -/
def stored (store after : Store Response) (next : Flow (Process Body Response) (Answer Body Response))
    (fail : Failure → Flow (Process Body Response) (Answer Body Response)) :
    Reply Response → Option (Store Response × Flow (Process Body Response) (Answer Body Response))
  | .done => some (after, next)
  | .failed message => some (store, fail (.storage message))
  | .lost message => some (after, fail (.storage message))
  | .handled _ => none

/-- The request ends with an error. -/
def rejects (request : Request Body) (error : Failure) :
    Flow (Process Body Response) (Answer Body Response) :=
  .answer { request, outcome := .error error }

def newRecord (cfg : Config Body Response) (id : RecordId) (r : KeyedRequest Body) (now : Time) :
    IdempotencyRecord Response where
  id := id
  key := r.key
  scope := r.scope
  requestHash := cfg.hashBody r.request.body
  status := .inProgress
  responseBody := none
  expiresAt := now + cfg.ttlMs

/-- The record as `complete` saves it. -/
def completed (cfg : Config Body Response) (record : IdempotencyRecord Response)
    (body : Option Response) : IdempotencyRecord Response :=
  { record with status := .completed, responseBody := body.map cfg.jsonForm }

/-- `begin` once the record of the key has been looked up. -/
def found (cfg : Config Body Response) (r : KeyedRequest Body) (now : Time) :
    Option (IdempotencyRecord Response) → Flow (Process Body Response) (Answer Body Response)
  | none => .await (.insert r now)
  | some existing =>
      if existing.expiresAt ≤ now then
        .await (.deleteExpired r now existing)
      else if existing.requestHash ≠ cfg.hashBody r.request.body then
        rejects r.request otherBody
      else if existing.status ≠ .completed then
        rejects r.request stillInProgress
      else
        .answer { request := r.request, outcome := .replayed existing.responseBody }

/-- `intercept` once the handler has ended. -/
def afterHandle (cfg : Config Body Response) (r : KeyedRequest Body)
    (record : IdempotencyRecord Response) :
    Result Response → Flow (Process Body Response) (Answer Body Response)
  | .returned body => .await (.complete r (completed cfg record body) body)
  | .threw error => .await (.release r record error)

def start (r : Request Body) (store : Store Response) :
    Store Response × Flow (Process Body Response) (Answer Body Response) :=
  match h : r.key? with
  | none => (store, .await (.handleUnkeyed r))
  | some key =>
      if keyPattern key = false then
        (store, rejects r badKey)
      else
        let keyed : KeyedRequest Body := { request := r, key, carries := h }
        if store.now - store.purgedAt r.server < purgeIntervalMs then
          (store, .await (.findOne keyed store.now))
        else
          (store.setPurged r.server store.now, .await (.purgeExpired keyed store.now))

def resume (cfg : Config Body Response) (id : CallId) (p : Process Body Response)
    (reply : Reply Response) (store : Store Response) :
    Option (Store Response × Flow (Process Body Response) (Answer Body Response)) :=
  match p with
  | .handleUnkeyed request =>
      match reply with
      | .handled result =>
          some (store.log { call := id, key := none, scope := request.scope, result },
            .answer { request, outcome := result.outcome })
      | _ => none
  | .purgeExpired r now =>
      stored store (store.purge now) (.await (.findOne r now)) (rejects r.request) reply
  | .findOne r now =>
      stored store store (found cfg r now (store.findOne r.key r.scope)) (rejects r.request) reply
  | .deleteExpired r now existing =>
      stored store (store.delete existing.id) (.await (.insert r now)) (rejects r.request) reply
  | .insert r now =>
      let record := newRecord cfg store.nextId r now
      if store.taken record then
        -- lost the race against a concurrent request with the same key
        stored store store (rejects r.request stillInProgress) (rejects r.request) reply
      else
        stored store (store.insert record) (.await (.handle r record)) (rejects r.request) reply
  | .handle r record =>
      match reply with
      | .handled result =>
          some (store.log { call := id, key := some r.key, scope := r.scope, result },
            afterHandle cfg r record result)
      | _ => none
  | .complete r record body =>
      if store.taken record then
        stored store store (.await (.release r record duplicateKey))
          (fun error => .await (.release r record error)) reply
      else
        stored store (store.save record) (.answer { request := r.request, outcome := .response body })
          (fun error => .await (.release r record error)) reply
  | .release r record error =>
      stored store (store.delete record.id) (rejects r.request error) (rejects r.request) reply

def external (e : Event) (store : Store Response) : Option (Store Response) :=
  match e with
  | .clock now => some { store with now }

def service (cfg : Config Body Response) :
    Service (Store Response) (Request Body) (Process Body Response) (Reply Response)
      (Answer Body Response) Event where
  start := start
  resume := resume cfg
  external := external

end Interceptor

/-! ## What a step can do -/

section Transitions

variable {Body Response : Type} {cfg : Config Body Response} {id : CallId}
  {store store' after : Store Response} {p : Process Body Response} {reply : Reply Response}
  {next flow : Flow (Process Body Response) (Answer Body Response)}
  {fail : Failure → Flow (Process Body Response) (Answer Body Response)}

/-- The request of a call that has not come to its handler yet. -/
def Process.asking? : Process Body Response → Option (KeyedRequest Body)
  | .purgeExpired r _ => some r
  | .findOne r _ => some r
  | .deleteExpired r _ _ => some r
  | .insert r _ => some r
  | _ => none

/-- A flow that goes on to the process `p`, or ends with an error. -/
def Proceeds (r : KeyedRequest Body) (p : Process Body Response)
    (flow : Flow (Process Body Response) (Answer Body Response)) : Prop :=
  flow = .await p ∨ ∃ error, flow = rejects r.request error

/-- A call from one wait to the next.  An operation that has been applied may still have been
reported as failed. -/
inductive Resumes (cfg : Config Body Response) (id : CallId) (store : Store Response) :
    Process Body Response → Reply Response → Store Response →
      Flow (Process Body Response) (Answer Body Response) → Prop
  | unkeyed {request : Request Body} {result : Result Response} :
      Resumes cfg id store (.handleUnkeyed request) (.handled result)
        (store.log { call := id, key := none, scope := request.scope, result })
        (.answer { request, outcome := result.outcome })
  | rejected {p : Process Body Response} {reply : Reply Response} {r : KeyedRequest Body}
      {error : Failure} (h : p.asking? = some r) :
      Resumes cfg id store p reply store (rejects r.request error)
  | purged {r : KeyedRequest Body} {now : Time} {reply : Reply Response}
      {flow : Flow (Process Body Response) (Answer Body Response)}
      (h : Proceeds r (.findOne r now) flow) :
      Resumes cfg id store (.purgeExpired r now) reply (store.purge now) flow
  | found {r : KeyedRequest Body} {now : Time} {reply : Reply Response} :
      Resumes cfg id store (.findOne r now) reply store
        (found cfg r now (store.findOne r.key r.scope))
  | dropped {r : KeyedRequest Body} {now : Time} {existing : IdempotencyRecord Response}
      {reply : Reply Response} {flow : Flow (Process Body Response) (Answer Body Response)}
      (h : Proceeds r (.insert r now) flow) :
      Resumes cfg id store (.deleteExpired r now existing) reply (store.delete existing.id) flow
  | inserted {r : KeyedRequest Body} {now : Time} {reply : Reply Response}
      {flow : Flow (Process Body Response) (Answer Body Response)}
      (hfree : store.taken (newRecord cfg store.nextId r now) = false)
      (h : Proceeds r (.handle r (newRecord cfg store.nextId r now)) flow) :
      Resumes cfg id store (.insert r now) reply (store.insert (newRecord cfg store.nextId r now))
        flow
  | handled {r : KeyedRequest Body} {record : IdempotencyRecord Response}
      {result : Result Response} :
      Resumes cfg id store (.handle r record) (.handled result)
        (store.log { call := id, key := some r.key, scope := r.scope, result })
        (afterHandle cfg r record result)
  | saved {r : KeyedRequest Body} {record : IdempotencyRecord Response} {body : Option Response}
      {reply : Reply Response} {flow : Flow (Process Body Response) (Answer Body Response)}
      (hfree : store.taken record = false)
      (h : flow = .answer { request := r.request, outcome := .response body } ∨
        ∃ error, flow = .await (.release r record error)) :
      Resumes cfg id store (.complete r record body) reply (store.save record) flow
  | unsaved {r : KeyedRequest Body} {record : IdempotencyRecord Response} {body : Option Response}
      {reply : Reply Response} {error : Failure} :
      Resumes cfg id store (.complete r record body) reply store (.await (.release r record error))
  | released {r : KeyedRequest Body} {record : IdempotencyRecord Response} {error other : Failure}
      {reply : Reply Response} (hreply : ∀ message, reply ≠ .failed message) :
      Resumes cfg id store (.release r record error) reply (store.delete record.id)
        (rejects r.request other)
  | unreleased {r : KeyedRequest Body} {record : IdempotencyRecord Response} {error other : Failure}
      {reply : Reply Response} :
      Resumes cfg id store (.release r record error) reply store (rejects r.request other)

/-- A storage operation is applied, or it is not and has failed. -/
theorem stored_eq_some (h : stored store after next fail reply = some (store', flow)) :
    (store' = after ∧ (∀ message, reply ≠ .failed message) ∧
      (flow = next ∨ ∃ error, flow = fail error)) ∨
    (store' = store ∧ ∃ error, flow = fail error) := by
  cases reply with
  | done =>
      cases h
      exact Or.inl ⟨rfl, by simp, Or.inl rfl⟩
  | failed message =>
      cases h
      exact Or.inr ⟨rfl, _, rfl⟩
  | lost message =>
      cases h
      exact Or.inl ⟨rfl, by simp, Or.inr ⟨_, rfl⟩⟩
  | handled result => cases h

theorem resumes_of_resume (h : resume cfg id p reply store = some (store', flow)) :
    Resumes cfg id store p reply store' flow := by
  cases p with
  | handleUnkeyed request =>
      cases reply with
      | handled result =>
          cases h
          exact .unkeyed
      | _ => cases h
  | purgeExpired r now =>
      rcases stored_eq_some h with ⟨rfl, _, hflow⟩ | ⟨rfl, error, rfl⟩
      · exact .purged hflow
      · exact .rejected rfl
  | findOne r now =>
      rcases stored_eq_some h with ⟨rfl, _, rfl | ⟨error, rfl⟩⟩ | ⟨rfl, error, rfl⟩
      · exact .found
      · exact .rejected rfl
      · exact .rejected rfl
  | deleteExpired r now existing =>
      rcases stored_eq_some h with ⟨rfl, _, hflow⟩ | ⟨rfl, error, rfl⟩
      · exact .dropped hflow
      · exact .rejected rfl
  | insert r now =>
      simp only [resume] at h
      split at h
      · rcases stored_eq_some h with ⟨rfl, _, rfl | ⟨error, rfl⟩⟩ | ⟨rfl, error, rfl⟩
        · exact .rejected rfl
        · exact .rejected rfl
        · exact .rejected rfl
      · rename_i hfree
        rcases stored_eq_some h with ⟨rfl, _, hflow⟩ | ⟨rfl, error, rfl⟩
        · exact .inserted (by simpa using hfree) hflow
        · exact .rejected rfl
  | handle r record =>
      cases reply with
      | handled result =>
          cases h
          exact .handled
      | _ => cases h
  | complete r record body =>
      simp only [resume] at h
      split at h
      · rcases stored_eq_some h with ⟨rfl, _, rfl | ⟨error, rfl⟩⟩ | ⟨rfl, error, rfl⟩
        · exact .unsaved
        · exact .unsaved
        · exact .unsaved
      · rename_i hfree
        rcases stored_eq_some h with ⟨rfl, _, hflow⟩ | ⟨rfl, error, rfl⟩
        · exact .saved (by simpa using hfree) hflow
        · exact .unsaved
  | release r record error =>
      rcases stored_eq_some h with ⟨rfl, hreply, rfl | ⟨error, rfl⟩⟩ | ⟨rfl, error, rfl⟩
      · exact .released hreply
      · exact .released hreply
      · exact .unreleased

/-- A call up to its first wait. -/
inductive Starts (r : Request Body) (store : Store Response) :
    Store Response → Flow (Process Body Response) (Answer Body Response) → Prop
  | unkeyed (h : r.key? = none) : Starts r store store (.await (.handleUnkeyed r))
  | rejected : Starts r store store (rejects r badKey)
  | asks {key : Text} {now : Time} (carries : r.key? = some key) :
      Starts r store store (.await (.findOne { request := r, key, carries } now))
  | purges {key : Text} {now : Time} (carries : r.key? = some key) :
      Starts r store (store.setPurged r.server now)
        (.await (.purgeExpired { request := r, key, carries } now))

theorem starts_of_start (r : Request Body) (store : Store Response) :
    Starts r store (start r store).1 (start r store).2 := by
  unfold start
  split
  · rename_i hkey
    exact .unkeyed hkey
  · rename_i key hkey
    split
    · exact .rejected
    · split
      · exact .asks hkey
      · exact .purges hkey

end Transitions

end Idempotency
end PaymentRail
