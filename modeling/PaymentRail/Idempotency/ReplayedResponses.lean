import PaymentRail.Idempotency.CanonicalJson
import PaymentRail.Idempotency.IdempotencyInterceptor

/-!
# ReplayedResponses — whose response a client gets

A client may get a response that its own request has not produced.  `responses_are_own` says that it is
the right one all the same: it was returned by the handler of a request with the same key, on the same
route and with the same body, up to the order of keys.  Nothing is asked of the run for this: storage may
fail at any step, before or after an operation took effect, the clocks of the instances may differ, and
records may expire, be deleted and be made again while their request is still running.

The invariant is about the records.  A completed one has the response of a handler that ran for the
request it stands for (`Genuine`), and it was completed by the call that had inserted it.
-/

namespace PaymentRail
namespace Idempotency

open Machine Strings Collections
open Separated (Stops)

/-! ## What a record stands for -/

section Genuine

variable {Body Response : Type}

/-- The call `id` was made with this request, and its handler has returned `body`. -/
structure Ran (moves : List (Move (Request Body) (Reply Response) Event)) (store : Store Response)
    (id : CallId) (request : Request Body) (body : Option Response) : Prop where
  asked : .call id request ∈ moves
  executed : { call := id, key := request.key?, scope := request.scope, result := .returned body } ∈
    store.executions

/-- The record was made for a request like this one. -/
structure StandsFor (cfg : Config Body Response) (record : IdempotencyRecord Response)
    (request : Request Body) : Prop where
  key : request.key? = some record.key
  scope : request.scope = record.scope
  hash : cfg.hashBody request.body = record.requestHash

/-- A completed record has the response of a handler that ran for what it stands for. -/
def Genuine (cfg : Config Body Response)
    (moves : List (Move (Request Body) (Reply Response) Event)) (store : Store Response)
    (record : IdempotencyRecord Response) : Prop :=
  record.status = .completed → ∃ id request body, Ran moves store id request body ∧
    StandsFor cfg record request ∧ record.responseBody = body.map cfg.jsonForm

/-- What a call relies on while it waits. -/
def Process.Traced (cfg : Config Body Response)
    (moves : List (Move (Request Body) (Reply Response) Event)) (store : Store Response) (id : CallId) :
    Process Body Response → Prop
  | .handleUnkeyed request => .call id request ∈ moves ∧ request.key? = none
  | .purgeExpired r _ => .call id r.request ∈ moves
  | .findOne r _ => .call id r.request ∈ moves
  | .deleteExpired r _ _ => .call id r.request ∈ moves
  | .insert r _ => .call id r.request ∈ moves
  | .handle r record => .call id r.request ∈ moves ∧ StandsFor cfg record r.request
  | .complete r record body => Ran moves store id r.request body ∧ StandsFor cfg record r.request ∧
      record.responseBody = body.map cfg.jsonForm
  | .release r _ _ => .call id r.request ∈ moves

/-- What a client may conclude from an answer. -/
def Answer.Traced (cfg : Config Body Response)
    (moves : List (Move (Request Body) (Reply Response) Event)) (store : Store Response) (id : CallId)
    (answer : Answer Body Response) : Prop :=
  .call id answer.request ∈ moves ∧
    match answer.outcome with
    | .response body => Ran moves store id answer.request body
    | .replayed body => ∃ first original returned, Ran moves store first original returned ∧
        original.key? = answer.request.key? ∧ original.scope = answer.request.scope ∧
        cfg.hashBody original.body = cfg.hashBody answer.request.body ∧
        body = returned.map cfg.jsonForm
    | .error _ => True

variable {cfg : Config Body Response} {moves : List (Move (Request Body) (Reply Response) Event)}
  {store store' : Store Response} {id : CallId} {p : Process Body Response} {reply : Reply Response}
  {flow : Flow (Process Body Response) (Answer Body Response)} {record : IdempotencyRecord Response}
  {r : KeyedRequest Body}

/-! ## Frames -/

/-- Nothing that was executed is forgotten. -/
def Logs (store store' : Store Response) : Prop := store.executions ⊆ store'.executions

theorem Ran.logs {request : Request Body} {body : Option Response} (h : Ran moves store id request body)
    (hlogs : Logs store store') : Ran moves store' id request body :=
  ⟨h.asked, hlogs h.executed⟩

theorem Genuine.logs (h : Genuine cfg moves store record) (hlogs : Logs store store') :
    Genuine cfg moves store' record := by
  intro hcompleted
  rcases h hcompleted with ⟨first, request, body, hran, hrest⟩
  exact ⟨first, request, body, hran.logs hlogs, hrest⟩

theorem genuine_subset (hrecords : ∀ record ∈ store.records, Genuine cfg moves store record)
    (hsubset : store'.records ⊆ store.records) (hlogs : Logs store store') :
    ∀ record ∈ store'.records, Genuine cfg moves store' record :=
  fun record hrecord => (hrecords record (hsubset hrecord)).logs hlogs

theorem Process.Traced.logs (h : p.Traced cfg moves store id) (hlogs : Logs store store') :
    p.Traced cfg moves store' id := by
  cases p with
  | complete r record body => exact ⟨h.1.logs hlogs, h.2⟩
  | _ => exact h

theorem Answer.Traced.logs {answer : Answer Body Response} (h : answer.Traced cfg moves store id)
    (hlogs : Logs store store') : answer.Traced cfg moves store' id := by
  rcases answer with ⟨request, outcome⟩
  refine ⟨h.1, ?_⟩
  cases outcome with
  | response body => exact h.2.logs hlogs
  | replayed body =>
      rcases h.2 with ⟨first, original, returned, hran, hrest⟩
      exact ⟨first, original, returned, hran.logs hlogs, hrest⟩
  | error error => trivial

/-! ## Steps -/

/-- What a step of the call `id` makes of the store, and what it leaves the call with. -/
structure Traces (cfg : Config Body Response)
    (moves : List (Move (Request Body) (Reply Response) Event)) (id : CallId)
    (store store' : Store Response) (flow : Flow (Process Body Response) (Answer Body Response)) :
    Prop where
  logs : Logs store store'
  records : ∀ record ∈ store'.records, Genuine cfg moves store' record
  awaits : flow.Awaits (Process.Traced cfg moves store' id)
  answers : ∀ answer, flow = .answer answer → answer.Traced cfg moves store' id

theorem traces_rejects {error : Failure} (hcall : .call id r.request ∈ moves)
    (hlogs : Logs store store') (hrecords : ∀ record ∈ store'.records, Genuine cfg moves store' record) :
    Traces cfg moves id store store' (rejects r.request error) where
  logs := hlogs
  records := hrecords
  awaits := trivial
  answers := by
    rintro answer ⟨⟩
    exact ⟨hcall, trivial⟩

/-- The call goes on, or its request ends with an error. -/
theorem Proceeds.traces (h : Proceeds r p flow) (hcall : .call id r.request ∈ moves)
    (hlogs : Logs store store') (hrecords : ∀ record ∈ store'.records, Genuine cfg moves store' record)
    (hp : p.Traced cfg moves store' id) : Traces cfg moves id store store' flow := by
  rcases h with rfl | ⟨error, rfl⟩
  · exact ⟨hlogs, hrecords, hp, fun _ hanswer => (by cases hanswer)⟩
  · exact traces_rejects hcall hlogs hrecords

theorem Process.Traced.asked (h : p.Traced cfg moves store id) (hasking : p.asking? = some r) :
    .call id r.request ∈ moves := by
  cases p with
  | purgeExpired _ _ => cases hasking; exact h
  | findOne _ _ => cases hasking; exact h
  | deleteExpired _ _ _ => cases hasking; exact h
  | insert _ _ => cases hasking; exact h
  | handleUnkeyed _ => cases hasking
  | handle _ _ => cases hasking
  | complete _ _ _ => cases hasking
  | release _ _ _ => cases hasking

/-- A record that is found is replayed to requests with its key, its route and its hash only. -/
theorem found_traces {now : Time} (hcall : .call id r.request ∈ moves)
    (hrecords : ∀ record ∈ store.records, Genuine cfg moves store record) :
    Traces cfg moves id store store (found cfg r now (store.findOne r.key r.scope)) := by
  cases hfound : store.findOne r.key r.scope with
  | none => exact ⟨fun _ h => h, hrecords, hcall, fun _ hanswer => (by cases hanswer)⟩
  | some existing =>
      have hsame : existing.key = r.key ∧ existing.scope = r.scope := by
        have hspec := List.find?_some hfound
        simpa using hspec
      unfold found
      split
      · rename_i heq
        cases heq
      · rename_i heq
        cases heq
        split
        · exact ⟨fun _ h => h, hrecords, hcall, fun _ hanswer => (by cases hanswer)⟩
        · split
          · exact traces_rejects hcall (fun _ h => h) hrecords
          · split
            · exact traces_rejects hcall (fun _ h => h) hrecords
            · rename_i hhash hstatus
              refine ⟨fun _ h => h, hrecords, trivial, ?_⟩
              rintro answer ⟨⟩
              rcases hrecords existing (List.mem_of_find?_eq_some hfound) (not_not.1 hstatus) with
                ⟨first, original, returned, hran, hstands, hbody⟩
              refine ⟨hcall, first, original, returned, hran, ?_, ?_, ?_, hbody⟩
              · exact hstands.key.trans ((congrArg some hsame.1).trans r.carries.symm)
              · exact hstands.scope.trans hsame.2
              · exact hstands.hash.trans (not_not.1 hhash)

/-- The handler has ended, which is logged under the request of the call. -/
theorem handled_traces {result : Result Response} (hcall : .call id r.request ∈ moves)
    (hstands : StandsFor cfg record r.request)
    (hrecords : ∀ record ∈ store.records, Genuine cfg moves store record) :
    Traces cfg moves id store
      (store.log { call := id, key := some r.key, scope := r.scope, result })
      (afterHandle cfg r record result) := by
  have hlogs : Logs store (store.log { call := id, key := some r.key, scope := r.scope, result }) :=
    List.subset_cons_self _ _
  have hkept : ∀ record ∈ store.records, Genuine cfg moves
      (store.log { call := id, key := some r.key, scope := r.scope, result }) record :=
    fun record hrecord => (hrecords record hrecord).logs hlogs
  cases result with
  | returned body =>
      refine ⟨hlogs, hkept, ⟨⟨hcall, ?_⟩, ⟨hstands.key, hstands.scope, hstands.hash⟩, rfl⟩,
        fun _ hanswer => (by cases hanswer)⟩
      rw [r.carries]
      exact List.mem_cons_self
  | threw error => exact ⟨hlogs, hkept, hcall, fun _ hanswer => (by cases hanswer)⟩

theorem Resumes.traces (h : Resumes cfg id store p reply store' flow)
    (hp : p.Traced cfg moves store id)
    (hrecords : ∀ record ∈ store.records, Genuine cfg moves store record) :
    Traces cfg moves id store store' flow := by
  have hsame : Logs store store := fun _ h => h
  cases h with
  | @unkeyed request result =>
      refine ⟨List.subset_cons_self _ _, ?_, trivial, ?_⟩
      · exact fun record hrecord => (hrecords record hrecord).logs (List.subset_cons_self _ _)
      · rintro answer ⟨⟩
        refine ⟨hp.1, ?_⟩
        cases result with
        | returned body =>
            refine ⟨hp.1, ?_⟩
            rw [hp.2]
            exact List.mem_cons_self
        | threw error => trivial
  | rejected hasking => exact traces_rejects (hp.asked hasking) hsame hrecords
  | purged hflow =>
      exact hflow.traces hp hsame
        (genuine_subset hrecords (fun _ hmem => List.mem_of_mem_filter hmem) hsame) hp
  | found => exact found_traces hp hrecords
  | dropped hflow =>
      exact hflow.traces hp hsame
        (genuine_subset hrecords (fun _ hmem => List.mem_of_mem_filter hmem) hsame) hp
  | @inserted r now _ _ hfree hflow =>
      refine hflow.traces hp hsame ?_ ⟨hp, r.carries, rfl, rfl⟩
      intro record hrecord
      rcases List.mem_cons.1 hrecord with rfl | hold
      · exact fun hcompleted => nomatch hcompleted
      · exact (hrecords record hold).logs hsame
  | handled => exact handled_traces hp.1 hp.2 hrecords
  | @saved _ record _ _ _ hfree hflow =>
      rcases hp with ⟨hran, hstands, hbody⟩
      have hsaved : Logs store (store.save record) := fun _ h => h
      have hkept : ∀ record' ∈ (store.save record).records,
          Genuine cfg moves (store.save record) record' := by
        intro record' hrecord'
        rcases Table.mem_put hrecord' with rfl | ⟨hold, _⟩
        · exact fun _ => ⟨id, _, _, hran.logs hsaved, hstands, hbody⟩
        · exact (hrecords record' hold).logs hsaved
      rcases hflow with rfl | ⟨error, rfl⟩
      · refine ⟨hsame, hkept, trivial, ?_⟩
        rintro answer ⟨⟩
        exact ⟨hran.asked, hran.logs hsaved⟩
      · exact ⟨hsame, hkept, hran.asked, fun _ hanswer => (by cases hanswer)⟩
  | unsaved => exact ⟨hsame, hrecords, hp.1.asked, fun _ hanswer => (by cases hanswer)⟩
  | released hreply =>
      exact traces_rejects hp hsame
        (genuine_subset hrecords (fun _ hmem => List.mem_of_mem_filter hmem) hsame)
  | unreleased => exact traces_rejects hp hsame hrecords

theorem Starts.traces {request : Request Body} (h : Starts request store store' flow)
    (hcall : .call id request ∈ moves)
    (hrecords : ∀ record ∈ store.records, Genuine cfg moves store record) :
    Traces cfg moves id store store' flow := by
  cases h with
  | unkeyed hkey => exact ⟨fun _ h => h, hrecords, ⟨hcall, hkey⟩, fun _ hanswer => (by cases hanswer)⟩
  | rejected =>
      refine ⟨fun _ h => h, hrecords, trivial, ?_⟩
      rintro answer ⟨⟩
      exact ⟨hcall, trivial⟩
  | asks carries => exact ⟨fun _ h => h, hrecords, hcall, fun _ hanswer => (by cases hanswer)⟩
  | purges carries =>
      exact ⟨fun _ h => h, genuine_subset hrecords (fun _ hmem => hmem) fun _ h => h, hcall,
        fun _ hanswer => (by cases hanswer)⟩

/-! ## Runs -/

/-- The records, the waiting calls and the answers, as far as they have come from the calls `moves`. -/
structure Traced (cfg : Config Body Response)
    (moves : List (Move (Request Body) (Reply Response) Event))
    (c : Calls (Store Response) (Process Body Response) (Answer Body Response)) : Prop where
  records : ∀ record ∈ c.store.records, Genuine cfg moves c.store record
  process : ∀ id p, c.process id = some p → p.Traced cfg moves c.store id
  answered : ∀ id answer, c.answered id = some answer → answer.Traced cfg moves c.store id

variable {c c' : Calls (Store Response) (Process Body Response) (Answer Body Response)}

/-- A step of one call leaves what the others rely on. -/
theorem Traced.go (hc : Traced cfg moves c) (h : Traces cfg moves id c.store store' flow) :
    Traced cfg moves (c.go id store' flow) where
  records := by
    rw [Calls.store_go]
    exact h.records
  process := by
    intro k q hq
    rw [Calls.store_go]
    rcases Calls.of_process_go hq with ⟨rfl, rfl⟩ | ⟨_, hold⟩
    · exact h.awaits
    · exact (hc.process k q hold).logs h.logs
  answered := by
    intro k answer hanswer
    rw [Calls.store_go]
    rcases Calls.of_answered_go hanswer with ⟨rfl, rfl⟩ | hold
    · exact h.answers answer rfl
    · exact (hc.answered k answer hold).logs h.logs

theorem Traced.step {m : Move (Request Body) (Reply Response) Event} (hm : m ∈ moves)
    (hc : Traced cfg moves c) (h : (service cfg).step m c = some c') : Traced cfg moves c' := by
  cases Service.steps_of_step h with
  | call id request _ _ => exact hc.go ((starts_of_start request c.store).traces hm hc.records)
  | resume id p reply store flow hp hresume =>
      exact hc.go ((resumes_of_resume hresume).traces (hc.process id p hp) hc.records)
  | external e store hexternal =>
      -- the clock moves no record and runs no handler
      cases e with
      | clock now =>
          cases hexternal
          have hlogs : Logs c.store { c.store with now } := fun _ h => h
          exact ⟨genuine_subset hc.records (fun _ hmem => hmem) hlogs,
            fun k q hq => (hc.process k q hq).logs hlogs,
            fun k answer hanswer => (hc.answered k answer hanswer).logs hlogs⟩

theorem traced_run (h : run (service cfg).step moves (.start .empty) = some c) :
    Traced cfg moves c := by
  refine run_invariant_mem (fun m hm d d' hd hstep => hd.step hm hstep) ⟨?_, ?_, ?_⟩ h
  · exact fun _ hrecord => absurd hrecord List.not_mem_nil
  · exact fun _ _ hp => absurd hp (by simp [Calls.start, Calls.process, Table.lookup])
  · exact fun _ _ hanswer => absurd hanswer (by simp [Calls.start, Calls.answered, Table.lookup])

end Genuine

/-! ## Whose response it is -/

variable {S N Response : Type} [LinearOrder S]

/-- Bodies with one hash are the same up to the order of keys. -/
theorem same_of_hashBody (J : Stringify S N) {sha256 : Text → Text} {used : Set Text}
    (hfree : Set.InjOn sha256 used) {a b : Value S N} (ha : canonicalJson J a ∈ used)
    (hb : canonicalJson J b ∈ used) (h : hashBody J sha256 a = hashBody J sha256 b) : Same a b := by
  have hstops : Stops endsValue [] := fun _ hc => absurd hc.symm (Option.some_ne_none _)
  have htext : canonicalJson J a ++ [] = canonicalJson J b ++ [] :=
    congrArg (· ++ []) (hfree ha hb h)
  exact (decodes_canonicalJson J a b [] [] hstops hstops htext).1

/-- The canonical texts of the bodies that were sent. -/
def sentTexts (J : Stringify S N)
    (moves : List (Move (Request (Value S N)) (Reply Response) Event)) : Set Text :=
  {text | ∃ id request, .call id request ∈ moves ∧ canonicalJson J request.body = text}

/-- A response comes from the handler of its own request, or from the handler of a request with the same
key, on the same route and with the same body. -/
theorem responses_are_own (J : Stringify S N) (sha256 : Text → Text) {cfg : Config (Value S N) Response}
    (hcfg : cfg.hashBody = hashBody J sha256)
    {moves : List (Move (Request (Value S N)) (Reply Response) Event)}
    (hfree : Set.InjOn sha256 (sentTexts J moves))
    {c : Calls (Store Response) (Process (Value S N) Response) (Answer (Value S N) Response)}
    (hrun : run (service cfg).step moves (.start .empty) = some c) {id : CallId}
    {answer : Answer (Value S N) Response} (hanswer : c.answered id = some answer) :
    .call id answer.request ∈ moves ∧
      (∀ body, answer.outcome = .response body → Ran moves c.store id answer.request body) ∧
      ∀ body, answer.outcome = .replayed body →
        ∃ first original returned, Ran moves c.store first original returned ∧
          original.key? = answer.request.key? ∧ original.scope = answer.request.scope ∧
          Same original.body answer.request.body ∧ body = returned.map cfg.jsonForm := by
  rcases answer with ⟨request, outcome⟩
  have htraced := (traced_run hrun).answered id _ hanswer
  refine ⟨htraced.1, ?_, ?_⟩
  · rintro body rfl
    exact htraced.2
  · rintro body rfl
    rcases htraced.2 with ⟨first, original, returned, hran, hkey, hscope, hhash, hbody⟩
    rw [hcfg] at hhash
    refine ⟨first, original, returned, hran, hkey, hscope, ?_, hbody⟩
    exact same_of_hashBody J hfree ⟨first, original, hran.asked, rfl⟩ ⟨id, request, htraced.1, rfl⟩ hhash

/-- Bodies are payments, and the digest is the text itself. -/
def paymentConfig : Config (Value Text Int) Nat where
  ttlMs := 86400000
  hashBody := hashBody sampleJson id
  jsonForm response := response

/-- An instance receives `POST /payments` with the key `key-1`. -/
def paying (server : Nat) (body : Value Text Int) : Request (Value Text Int) where
  server := server
  method := "POST".toList
  path := "/payments".toList
  idempotencyKey := some (.one "key-1".toList)
  body := body

/-- The retry comes to the other instance and has the fields of its body the other way round. -/
def paidAgain : List (Move (Request (Value Text Int)) (Reply Nat) Event) :=
  [.call 0 (paying 0 samplePayment), .resume 0 .done, .resume 0 .done,
    .resume 0 (.handled (.returned (some 7))), .resume 0 .done, .call 1 (paying 1 reorderedPayment),
    .resume 1 .done]

theorem responses_are_own_paidAgain :
    ∃ c answer, run (service paymentConfig).step paidAgain (.start .empty) = some c ∧
      c.answered 1 = some answer ∧ answer.outcome = .replayed (some 7) ∧
      ∃ first original returned, Ran paidAgain c.store first original returned ∧
        original.key? = answer.request.key? ∧ original.scope = answer.request.scope ∧
        Same original.body answer.request.body ∧ some 7 = returned := by
  have hreached : ((run (service paymentConfig).step paidAgain (.start .empty)).any fun c =>
      (c.answered 1).any fun answer => answer.outcome = .replayed (some 7)) = true := by
    decide +kernel
  rcases (Option.any_eq_true _ _).1 hreached with ⟨c, hc, hany⟩
  rcases (Option.any_eq_true _ _).1 hany with ⟨answer, hanswer, houtcome⟩
  have hreplayed := of_decide_eq_true houtcome
  have hown := responses_are_own sampleJson id rfl (Set.injOn_id _) hc hanswer
  rcases hown.2.2 _ hreplayed with ⟨first, original, returned, hran, hkey, hscope, hsame, hbody⟩
  refine ⟨c, answer, hc, hanswer, hreplayed, first, original, returned, hran, hkey, hscope, hsame, ?_⟩
  rw [hbody]
  exact Option.map_id'

end Idempotency
end PaymentRail
