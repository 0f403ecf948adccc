import PaymentRail.Webhooks.SecretsKept
import PaymentRail.Webhooks.Transitions
import PaymentRail.Webhooks.WebhookSignature

/-!
# SignedPosts — what a subscriber can verify

A request is signed with the secret of the entity that its call has in memory.  The entity was read from
the table earlier, so between the two the secret of the row may have been rotated.

`posts_signed_since` is the promise that is left.  From a moment with no call under way on, every request
verifies for exactly one secret, and this is one that its subscription has had since that moment: a secret
that was rotated out before is never used again, whatever is answered, removed or paused meanwhile.
-/

namespace PaymentRail
namespace Webhooks

open Machine Collections Strings Signature

/-! ## The signature of a request -/

/-- `SIGNATURE_HEADER` -/
def signatureHeader : String := "X-Prom-Signature"

/-- The signature as the subscriber receives it. -/
def Post.signature (post : Post) : Option Text :=
  (Table.lookup Prod.fst post.headers signatureHeader).map fun header => header.2.toList

/-- The service signs the text of the body. -/
def Config.Signs (cfg : Config) (hmac : Hmac) (stringify : WebhookEnvelope → Text) : Prop :=
  ∀ secret timestamp envelope, cfg.computeSignature secret timestamp envelope =
    String.ofList (Signature.computeSignature hmac secret.toList timestamp (stringify envelope))

/-- The subscriber's check of a request, under some secret and for some body. -/
def Post.verifies (post : Post) (hmac : Hmac) (secret body : Text) (tolerance : Option ℚ) (now : Int) :
    Bool :=
  (verifySignatureHeader hmac secret post.signature body tolerance now).valid

/-- The request verifies for this secret and its own body within the tolerance, and for nothing else. -/
def Post.VerifiesOnlyFor (post : Post) (hmac : Hmac) (stringify : WebhookEnvelope → Text)
    (secret : Text) : Prop :=
  ∀ used, CollisionFree hmac used → ∀ (secret' body' : Text) (tolerance : Option ℚ) (now : Int),
    (secret, signedText (post.sentAt / 1000 : Nat) (stringify post.envelope)) ∈ used →
    (secret', signedText (post.sentAt / 1000 : Nat) body') ∈ used →
    (post.verifies hmac secret' body' tolerance now = true ↔
      secret' = secret ∧ body' = stringify post.envelope ∧
        Within (tolerance.getD defaultToleranceSeconds) (now / 1000) (post.sentAt / 1000 : Nat))

/-- The request was made for this subscription, from its entity. -/
structure Post.From (cfg : Config) (post : Post) (e : WebhookSubscription) : Prop where
  subscriptionId : post.subscriptionId = e.id
  url : post.url = e.url
  signature : post.signature = some ("t=" ++ toString (post.sentAt / 1000) ++ ",v1=" ++
    cfg.computeSignature e.secret (post.sentAt / 1000) post.envelope).toList

section Verifies

variable {cfg : Config} {hmac : Hmac} {stringify : WebhookEnvelope → Text} {post : Post}
  {e : WebhookSubscription}

/-- The header of the service is the one that is built from the secret and the body. -/
theorem Post.From.header (h : post.From cfg e) (hsigns : cfg.Signs hmac stringify) :
    post.signature = some (buildSignatureHeader hmac e.secret.toList (stringify post.envelope)
      post.sentAt) := by
  have htime : (post.sentAt : Int) / 1000 = (post.sentAt / 1000 : Nat) := rfl
  rw [h.signature, hsigns, buildSignatureHeader, htime, Json.intText_natCast]
  simp [String.toList_append, signatureVersion]

theorem Post.From.verifiesOnlyFor (h : post.From cfg e) (hsigns : cfg.Signs hmac stringify)
    (hless : post.sentAt / 1000 < 10 ^ 12) : post.VerifiesOnlyFor hmac stringify e.secret.toList := by
  intro used hfree secret' body' tolerance now hused hused'
  have hparsed : parseHeader post.signature = some (post.sentAt / 1000,
      [computeSignature hmac e.secret.toList (post.sentAt / 1000 : Nat) (stringify post.envelope)]) := by
    rw [h.header hsigns]
    exact parseHeader_build rfl hless
  rw [Post.verifies, valid_iff]
  constructor
  · rintro ⟨t, signatures, hread, _, hwithin, candidate, hmem, hbytes⟩
    cases hparsed.symm.trans hread
    rw [List.mem_singleton.1 hmem] at hbytes
    -- equal bytes are equal digests, and these are in use under one key and text
    have hdigest := eq_of_hexBuffer (hmac.pattern _ _) (hmac.pattern _ _) hbytes
    rcases Prod.mk.inj (hfree hused hused' hdigest) with ⟨hsecret, htext⟩
    exact ⟨hsecret.symm, (signedText_injective htext).2.symm, hwithin⟩
  · rintro ⟨rfl, rfl, hwithin⟩
    refine ⟨_, _, hparsed, ?_, hwithin, _, List.mem_singleton_self _, rfl⟩
    simp only [verifySignatureHeader, hparsed]
    split
    · rfl
    · split
      · rfl
      · rfl

end Verifies

/-! ## Where requests come from -/

/-- What is said of the entities that requests are made from. -/
def PostsFrom (cfg : Config) (good : WebhookSubscription → Prop) (store store' : Store) : Prop :=
  ∃ new, store'.posts = new ++ store.posts ∧ ∀ post ∈ new, ∃ e, good e ∧ post.From cfg e

/-- It is said of all that the call has in memory. -/
def Process.Remembers (good : WebhookSubscription → Prop) (p : Process) : Prop :=
  ∀ e ∈ p.inMemory, good e

section Posts

variable {cfg : Config} {now : Time} {store store' store'' : Store} {good : WebhookSubscription → Prop}
  (hpaused : ∀ e, good e → good { e with active := false })

theorem PostsFrom.of_eq (h : store'.posts = store.posts) : PostsFrom cfg good store store' :=
  ⟨[], h, fun _ hpost => absurd hpost List.not_mem_nil⟩

theorem PostsFrom.trans (h : PostsFrom cfg good store store') (h' : PostsFrom cfg good store' store'') :
    PostsFrom cfg good store store'' := by
  rcases h with ⟨new, hposts, hnew⟩
  rcases h' with ⟨newer, hposts', hnewer⟩
  refine ⟨newer ++ new, ?_, ?_⟩
  · rw [hposts', hposts, List.append_assoc]
  · intro post hpost
    rcases List.mem_append.1 hpost with hmem | hmem
    · exact hnewer post hmem
    · exact hnew post hmem

theorem postsFrom_send {delivery : WebhookDelivery} {e : WebhookSubscription} (he : good e)
    (hid : delivery.subscriptionId = e.id) :
    PostsFrom cfg good store (send cfg now delivery e store).1 := by
  refine ⟨[_], rfl, ?_⟩
  intro post hpost
  rw [List.mem_singleton.1 hpost]
  exact ⟨e, he, hid, rfl, rfl⟩

include hpaused

theorem good_settle {recorded : WebhookDelivery} {e : WebhookSubscription} (he : good e) :
    good (settle cfg now recorded e).subscription := by
  unfold settle
  split
  · exact hpaused e he
  · exact he

/-- `deliver` makes no other request. -/
theorem deliverStep_posts {a : Attempt} {reply : Reply} {turn : Turn}
    (h : deliverStep cfg now a reply store = some (store', turn)) (ha : good a.subscription) :
    store'.posts = store.posts ∧ ∀ a', turn = .await a' → good a'.subscription := by
  unfold deliverStep at h
  split at h
  -- the answer, or no answer, to the request
  · cases h
    refine ⟨rfl, ?_⟩
    rintro a' ⟨⟩
    exact good_settle hpaused ha
  · cases h
    refine ⟨rfl, ?_⟩
    rintro a' ⟨⟩
    exact good_settle hpaused ha
  -- the two saves
  · cases h
    refine ⟨rfl, ?_⟩
    rintro a' ⟨⟩
    exact ha
  · cases h
    exact ⟨rfl, fun _ hturn => (by cases hturn)⟩
  · cases h
    exact ⟨rfl, fun _ hturn => (by cases hturn)⟩
  · cases h
    exact ⟨rfl, fun _ hturn => (by cases hturn)⟩
  · cases h

theorem taskStep_posts {event : WebhookEvent} {data : Payload} {task : Task} {reply : Reply}
    {next : Option Task} (h : taskStep cfg event data now task reply store = some (store', next))
    (htask : good task.subscription) :
    PostsFrom cfg good store store' ∧ ∀ task', next = some task' → good task'.subscription := by
  cases task with
  | insert subscription =>
      simp only [taskStep] at h
      split at h
      · split at h
        · cases h
          refine ⟨.trans (.of_eq rfl) (postsFrom_send htask rfl), ?_⟩
          rintro task' ⟨⟩
          exact htask
        · cases h
      · cases h
        exact ⟨.of_eq rfl, fun _ hnext => (by cases hnext)⟩
      · cases h
  | deliver a =>
      simp only [taskStep] at h
      split at h
      · rename_i hstep
        cases h
        have hposts := deliverStep_posts hpaused hstep htask
        refine ⟨.of_eq hposts.1, ?_⟩
        rintro task' ⟨⟩
        exact hposts.2 _ rfl
      · rename_i hstep
        cases h
        exact ⟨.of_eq (deliverStep_posts hpaused hstep htask).1, fun _ hnext => (by cases hnext)⟩
      · rename_i hstep
        cases h
        exact ⟨.of_eq (deliverStep_posts hpaused hstep htask).1, fun _ hnext => (by cases hnext)⟩
      · cases h

omit hpaused in
theorem fanOut_remembers {event : WebhookEvent} {data : Payload} {tasks : List (SubscriptionId × Task)}
    (h : ∀ entry ∈ tasks, good entry.2.subscription) :
    (fanOut event data now tasks).Awaits (Process.Remembers good) := by
  refine fanOut_awaits ?_
  intro e he
  rcases List.mem_map.1 he with ⟨entry, hentry, rfl⟩
  exact h entry hentry

omit hpaused in
theorem nextDue_remembers {tick : Tick} {flow : Flow Process Answer}
    (h : nextDue tick store = (store', flow)) :
    store'.posts = store.posts ∧ flow.Awaits (Process.Remembers good) := by
  rcases nextDue_cases h with ⟨_, rfl, rfl⟩ | ⟨_, _, _, rfl, rfl⟩
  · exact ⟨rfl, trivial⟩
  · exact ⟨rfl, fun e he => absurd he List.not_mem_nil⟩

/-- A step makes requests from what its call has in memory and from rows, and remembers no more. -/
theorem resume_posts {p : Process} {input : Input} {flow : Flow Process Answer}
    (h : resume cfg p input store = some (store', flow)) (hp : p.Remembers good)
    (hrows : ∀ e ∈ store.subscriptions, good e) :
    PostsFrom cfg good store store' ∧ flow.Awaits (Process.Remembers good) := by
  cases p with
  | findActive event data now =>
      simp only [resume] at h
      split at h
      · cases h
        refine ⟨.of_eq rfl, fanOut_remembers ?_⟩
        intro entry hentry
        rcases List.mem_map.1 hentry with ⟨e, he, rfl⟩
        exact hrows e (List.mem_of_mem_filter (List.mem_of_mem_filter he))
      · cases h
        exact ⟨.of_eq rfl, trivial⟩
      · cases h
  | fanOut event data now tasks =>
      have htasks : ∀ entry ∈ tasks, good entry.2.subscription :=
        fun entry hentry => hp _ (List.mem_map_of_mem hentry)
      simp only [resume] at h
      split at h
      · cases h
      · split at h
        · cases h
        · rename_i found task hlookup
          have htask := htasks _ (Table.mem_of_lookup hlookup)
          split at h
          · rename_i hstep
            cases h
            rcases taskStep_posts hpaused hstep htask with ⟨hposts, hnext⟩
            refine ⟨hposts, fanOut_remembers ?_⟩
            intro entry hentry
            rcases Table.mem_put hentry with rfl | ⟨hold, _⟩
            · exact hnext _ rfl
            · exact htasks entry hold
          · rename_i hstep
            cases h
            refine ⟨(taskStep_posts hpaused hstep htask).1, fanOut_remembers ?_⟩
            exact fun entry hentry => htasks entry (List.mem_of_mem_filter hentry)
          · cases h
  | findDueDeliveries now =>
      simp only [resume] at h
      split at h
      · exact (nextDue_remembers (Option.some.inj h)).imp_left .of_eq
      · cases h
        exact ⟨.of_eq rfl, trivial⟩
      · cases h
  | findSubscription tick delivery =>
      simp only [resume] at h
      split at h
      · split at h
        · rename_i e hfind
          have he : good e := hrows e (Table.mem_of_lookup hfind)
          have hid : e.id = delivery.subscriptionId := Table.key_of_lookup hfind
          split at h
          · cases h
            refine ⟨postsFrom_send he hid.symm, ?_⟩
            intro e' he'
            rw [List.mem_singleton.1 he']
            exact he
          · cases h
            exact ⟨.of_eq rfl, fun _ he' => absurd he' List.not_mem_nil⟩
        · cases h
          exact ⟨.of_eq rfl, fun _ he' => absurd he' List.not_mem_nil⟩
      · cases h
        exact ⟨.of_eq rfl, trivial⟩
      · cases h
  | giveUp tick delivery =>
      simp only [resume] at h
      split at h
      · exact (nextDue_remembers (Option.some.inj h)).imp_left .of_eq
      · cases h
        exact ⟨.of_eq rfl, trivial⟩
      · cases h
  | redeliver tick a =>
      have ha : good a.subscription := hp _ (List.mem_singleton_self _)
      simp only [resume] at h
      split at h
      · rename_i saved turn hstep
        rcases deliverStep_posts hpaused hstep ha with ⟨hposts, hnext⟩
        cases turn with
        | await a' =>
            cases h
            refine ⟨.of_eq hposts, ?_⟩
            intro e he
            rw [List.mem_singleton.1 he]
            exact hnext a' rfl
        | returned delivery =>
            rcases nextDue_remembers (Option.some.inj h) with ⟨hsame, hremembers⟩
            exact ⟨.of_eq (hsame.trans hposts), hremembers⟩
        | thrown error =>
            cases h
            exact ⟨.of_eq hposts, trivial⟩
      · cases h

end Posts

namespace SecretRotation

/-! ## Entities that are given -/

/-- The entity is a row that was stored in `c₀` or is created by one of the moves, with the secret it had
or one that a rotation among the moves has given it. -/
def Given (c₀ : State) (moves : List (Move Request Signal Event)) (e : WebhookSubscription) : Prop :=
  ∃ origin : WebhookSubscription,
    (origin ∈ c₀.store.webhooks.subscriptions ∨ .external (.create origin) ∈ moves) ∧
      e.id = origin.id ∧ e.url = origin.url ∧
      (e.secret = origin.secret ∨
        ∃ k, .call k (.rotateSecret origin.id) ∈ moves ∧ .resume k (.read e.secret) ∈ moves)

section Given

variable {c₀ : State} {moves : List (Move Request Signal Event)} {e : WebhookSubscription}
  {k : CallId}

theorem Given.paused (c₀ : State) (moves : List (Move Request Signal Event)) (e : WebhookSubscription)
    (h : Given c₀ moves e) : Given c₀ moves { e with active := false } := h

theorem Given.rotated (h : Given c₀ moves e) (hcall : .call k (.rotateSecret e.id) ∈ moves)
    {secret : String} (hread : .resume k (.read secret) ∈ moves) :
    Given c₀ moves { e with secret } := by
  rcases h with ⟨origin, horigin, hid, hurl, _⟩
  exact ⟨origin, horigin, hid, hurl, Or.inr ⟨k, by rw [← hid]; exact hcall, hread⟩⟩

/-- All rows are given. -/
def GivenRows (c₀ : State) (moves : List (Move Request Signal Event)) (s : Managed) : Prop :=
  ∀ e ∈ s.webhooks.subscriptions, Given c₀ moves e

/-- What a call has in memory, or is about to save, is given. -/
def Trusted (c₀ : State) (moves : List (Move Request Signal Event)) (k : CallId) : Process → Prop
  | .webhook p => p.Remembers (Given c₀ moves)
  | .redeliver _ a => Given c₀ moves a.subscription
  | .findOne id => .call k (.rotateSecret id) ∈ moves
  | .saveRotated e => Given c₀ moves e
  | _ => True

theorem givenRows_saved {s : Managed} {store : Store} {pausing : Option WebhookSubscription}
    (hstore : store.subscriptions = saved s.webhooks.subscriptions pausing)
    (hrows : GivenRows c₀ moves s) (hpausing : ∀ e, pausing = some e → Given c₀ moves e) :
    GivenRows c₀ moves { s with webhooks := store } := by
  intro row hrow
  have hmem : row ∈ saved s.webhooks.subscriptions pausing := by
    rw [← hstore]
    exact hrow
  cases pausing with
  | none => exact hrows row hmem
  | some e =>
      rcases Table.mem_put hmem with rfl | ⟨hold, _⟩
      · exact hpausing _ rfl
      · exact hrows row hold

end Given

/-! ## Steps -/

section Steps

variable {cfg : Config} {c₀ c c' : State} {moves : List (Move Request Signal Event)} {s s' : Managed}
  {k : CallId}

/-- What a step of a waiting call makes of requests, rows and memory. -/
structure Stays (cfg : Config) (c₀ : State) (moves : List (Move Request Signal Event)) (k : CallId)
    (s s' : Managed) (flow : Flow Process Answer) : Prop where
  posts : PostsFrom cfg (Given c₀ moves) s.webhooks s'.webhooks
  rows : GivenRows c₀ moves s'
  flow : flow.Awaits (Trusted c₀ moves k)

/-- The step answers, or waits for something without an entity in memory. -/
theorem Stays.idle {flow : Flow Process Answer} (hrows : GivenRows c₀ moves s)
    (hflow : flow.Awaits (Trusted c₀ moves k)) : Stays cfg c₀ moves k s s flow :=
  ⟨.of_eq rfl, hrows, hflow⟩

theorem stays_redeliverFound {delivery : WebhookDelivery} {now : Time} (hrows : GivenRows c₀ moves s) :
    Stays cfg c₀ moves k s
      (redeliverFound cfg delivery now s (s.find delivery.subscriptionId)).1
      (.await (redeliverFound cfg delivery now s (s.find delivery.subscriptionId)).2) := by
  unfold redeliverFound
  split
  · rename_i e hfind
    have he : Given c₀ moves e := hrows e (Table.mem_of_lookup hfind)
    have hid : e.id = delivery.subscriptionId := Table.key_of_lookup hfind
    split
    · exact ⟨postsFrom_send he hid.symm, hrows, he⟩
    · exact .idle hrows trivial
  · exact .idle hrows trivial

theorem stays_of_resume {p : Process} {signal : Signal} {flow : Flow Process Answer}
    (hmove : .resume k signal ∈ moves) (h : resume cfg p signal s = some (s', flow))
    (hp : Trusted c₀ moves k p) (hrows : GivenRows c₀ moves s) : Stays cfg c₀ moves k s s' flow := by
  unfold resume at h
  split at h
  · rcases Option.map_eq_some_iff.1 h with ⟨⟨store, next⟩, hresume, hnext⟩
    cases hnext
    rcases resume_posts (Given.paused c₀ moves) hresume hp hrows with ⟨hposts, hremembers⟩
    refine ⟨hposts, givenRows_saved (resume_saves hresume).1 hrows ?_, ?_⟩
    · exact fun e hpausing => hp e (mem_inMemory_of_pausing hpausing)
    · cases next with
      | await q => exact hremembers
      | answer a => trivial
  · cases h
    exact stays_redeliverFound hrows
  · cases h
    exact ⟨.of_eq rfl, hrows, trivial⟩
  · rcases Option.map_eq_some_iff.1 h with ⟨⟨store, turn⟩, hstep, hnext⟩
    cases hnext
    rcases deliverStep_posts (Given.paused c₀ moves) hstep hp with ⟨hposts, hturn⟩
    refine ⟨.of_eq hposts, givenRows_saved (deliverStep_saves hstep).1 hrows ?_, ?_⟩
    · intro e hpausing
      rw [← eq_of_pausing hpausing]
      exact hp
    · cases turn with
      | await a' => exact hturn a' rfl
      | returned delivery => trivial
      | thrown error => trivial
  -- `rotateSecret` reads the row and gives it the new secret
  · split at h
    · cases h
      exact .idle hrows trivial
    · rename_i e hfind
      cases h
      refine .idle hrows ?_
      have hid : e.id = _ := Table.key_of_lookup hfind
      exact (hrows e (Table.mem_of_lookup hfind)).rotated (by rw [hid]; exact hp) hmove
  · cases h
    refine ⟨.of_eq rfl, ?_, trivial⟩
    intro row hrow
    rcases Table.mem_put hrow with rfl | ⟨hold, _⟩
    · exact hp
    · exact hrows row hold
  · split at h
    · cases h
      exact .idle hrows trivial
    · cases h
      exact ⟨.of_eq rfl, fun row hrow => hrows row (List.mem_of_mem_filter hrow), trivial⟩
  -- a storage operation has failed
  · cases h
    exact .idle hrows trivial
  · cases h
    exact .idle hrows trivial
  · cases h
    exact .idle hrows trivial
  · cases h
    exact .idle hrows trivial
  · cases h
    exact .idle hrows trivial
  · cases h

theorem stays_start (request : Request) (hmove : .call k request ∈ moves)
    (hrows : GivenRows c₀ moves s) :
    Stays cfg c₀ moves k s (start request s).1 (start request s).2 := by
  cases request with
  | webhook request =>
      cases request with
      | emit event data => exact ⟨.of_eq rfl, hrows, fun e he => absurd he List.not_mem_nil⟩
      | processDue =>
          simp only [start, Webhooks.start]
          split
          · exact ⟨.of_eq rfl, hrows, trivial⟩
          · exact ⟨.of_eq rfl, hrows, fun e he => absurd he List.not_mem_nil⟩
  | redeliver delivery => exact .idle hrows trivial
  | rotateSecret id => exact .idle hrows hmove
  | remove id => exact .idle hrows trivial

theorem external_stays {e : Event} (hmove : .external e ∈ moves) (h : external e s = some s')
    (hrows : GivenRows c₀ moves s) :
    s'.webhooks.posts = s.webhooks.posts ∧ GivenRows c₀ moves s' := by
  cases e with
  | create subscription =>
      simp only [external] at h
      split at h
      · cases h
        refine ⟨rfl, ?_⟩
        intro row hrow
        rcases Table.mem_put hrow with rfl | ⟨hold, _⟩
        · exact ⟨row, Or.inr hmove, rfl, rfl, Or.inl rfl⟩
        · exact hrows row hold
      · cases h
  | elapse ms =>
      cases h
      exact ⟨rfl, hrows⟩

/-! ## Runs -/

/-- What holds since `c₀`. -/
structure Since (cfg : Config) (c₀ : State) (moves : List (Move Request Signal Event)) (c : State) :
    Prop where
  posts : PostsFrom cfg (Given c₀ moves) c₀.store.webhooks c.store.webhooks
  rows : GivenRows c₀ moves c.store
  calls : ∀ k p, c.process k = some p → Trusted c₀ moves k p

theorem Since.go {flow : Flow Process Answer} (h : Since cfg c₀ moves c)
    (hstays : Stays cfg c₀ moves k c.store s flow) : Since cfg c₀ moves (c.go k s flow) := by
  refine ⟨?_, ?_, ?_⟩
  · rw [Calls.store_go]
    exact h.posts.trans hstays.posts
  · rw [Calls.store_go]
    exact hstays.rows
  · intro other p hp
    rcases Calls.of_process_go hp with ⟨rfl, rfl⟩ | ⟨_, hold⟩
    · exact hstays.flow
    · exact h.calls other p hold

theorem Since.step {m : Move Request Signal Event} (h : Since cfg c₀ moves c) (hmove : m ∈ moves)
    (hstep : (service cfg).step m c = some c') : Since cfg c₀ moves c' := by
  cases Service.steps_of_step hstep with
  | call k request hnew hunanswered => exact h.go (stays_start request hmove h.rows)
  | resume k p signal store flow hp hresume =>
      exact h.go (stays_of_resume hmove hresume (h.calls k p hp) h.rows)
  | external e store hexternal =>
      rcases external_stays hmove hexternal h.rows with ⟨hposts, hrows⟩
      exact ⟨h.posts.trans (.of_eq hposts), hrows, h.calls⟩

theorem Since.run (h : Since cfg c₀ moves c) (hrun : run (service cfg).step moves c = some c') :
    Since cfg c₀ moves c' :=
  run_invariant_mem (fun _ hm _ _ hd hstep => hd.step hm hstep) h hrun

end Steps

/-- From a moment with no call under way on, with any answers, pauses, removals and rotations: every
request that is made verifies for exactly one secret, and this is the one that the subscription of its
delivery had at that moment or was created with, or one that was rotated to since. -/
theorem posts_signed_since {cfg : Config} {hmac : Hmac} {stringify : WebhookEnvelope → Text}
    (hsigns : cfg.Signs hmac stringify) {c₀ c : State} (hidle : c₀.processes = [])
    {moves : List (Move Request Signal Event)} (hrun : run (service cfg).step moves c₀ = some c) :
    ∃ new, c.store.webhooks.posts = new ++ c₀.store.webhooks.posts ∧
      ∀ post ∈ new, post.sentAt / 1000 < 10 ^ 12 → ∃ (origin : WebhookSubscription) (secret : String),
        (origin ∈ c₀.store.webhooks.subscriptions ∨ .external (.create origin) ∈ moves) ∧
          post.subscriptionId = origin.id ∧ post.url = origin.url ∧
          (secret = origin.secret ∨
            ∃ k, .call k (.rotateSecret origin.id) ∈ moves ∧ .resume k (.read secret) ∈ moves) ∧
          post.VerifiesOnlyFor hmac stringify secret.toList := by
  have hstart : Since cfg c₀ moves c₀ := by
    refine ⟨.of_eq rfl, ?_, ?_⟩
    · exact fun row hrow => ⟨row, Or.inl hrow, rfl, rfl, Or.inl rfl⟩
    · intro k p hp
      simp [Calls.process, Table.lookup, hidle] at hp
  rcases (hstart.run hrun).posts with ⟨new, hposts, hnew⟩
  refine ⟨new, hposts, ?_⟩
  intro post hpost hless
  rcases hnew post hpost with ⟨e, ⟨origin, horigin, hid, hurl, hsecret⟩, hfrom⟩
  exact ⟨origin, e.secret, horigin, hfrom.subscriptionId.trans hid, hfrom.url.trans hurl, hsecret,
    hfrom.verifiesOnlyFor hsigns hless⟩

/-- The data is the body, and `sampleHmac` signs it. -/
def signingConfig : Config :=
  { sampleConfig with
    computeSignature := fun secret timestamp envelope =>
      String.ofList (computeSignature sampleHmac secret.toList timestamp envelope.data.toList) }

/-- The secret of a subscription is rotated from `old` to `key`. -/
def rotatedToKey : List (Move Request Signal Event) :=
  [.external (.create sampleSubscription), .external (.elapse 1500), .call 0 (.rotateSecret 1),
    .resume 0 (.read "key"), .resume 0 (.reply .done)]

/-- Then an event is sent to it. -/
def sentAfterRotation : List (Move Request Signal Event) :=
  [.call 1 (.webhook (.emit .escrowClosed "x")), .resume 1 (.webhook ⟨none, .done⟩),
    .resume 1 (.webhook ⟨some 1, .inserted 7⟩)]

theorem posts_signed_since_rotation :
    ∃ c₀ c post, run (service signingConfig).step rotatedToKey (.start .empty) = some c₀ ∧
      run (service signingConfig).step sentAfterRotation c₀ = some c ∧
      post ∈ c.store.webhooks.posts ∧ post.verifies sampleHmac "key".toList ['x'] none 2000 = true ∧
      post.verifies sampleHmac "old".toList ['x'] none 2000 = false := by
  have hreached : ((run (service signingConfig).step rotatedToKey (.start .empty)).any fun c₀ =>
      c₀.processes = [] ∧ c₀.store.webhooks.posts = [] ∧
        c₀.store.webhooks.subscriptions = [{ sampleSubscription with secret := "key" }] ∧
        (run (service signingConfig).step sentAfterRotation c₀).any fun c =>
          c.store.webhooks.posts.length = 1 ∧ c.store.webhooks.posts.all fun post =>
            post.sentAt = 1500 ∧ post.envelope.data = "x") = true := by
    decide +kernel
  rcases (Option.any_eq_true _ _).1 hreached with ⟨c₀, hrun₀, hstate⟩
  rcases of_decide_eq_true hstate with ⟨hidle, hnothing, hrows, hsent⟩
  rcases (Option.any_eq_true _ _).1 hsent with ⟨c, hrun, hposts⟩
  rcases of_decide_eq_true hposts with ⟨hlength, hall⟩
  have hsigns : signingConfig.Signs sampleHmac fun envelope => envelope.data.toList :=
    fun _ _ _ => rfl
  rcases posts_signed_since hsigns hidle hrun with ⟨new, hnew, hverifies⟩
  rcases List.length_eq_one_iff.1 hlength with ⟨post, hpost⟩
  have hmem : post ∈ c.store.webhooks.posts := by simp [hpost]
  have hin : post ∈ new := by simpa [hnew, hnothing] using hmem
  rcases of_decide_eq_true (List.all_eq_true.1 hall post hmem) with ⟨htime, hdata⟩
  rcases hverifies post hin (by rw [htime]; decide) with
    ⟨origin, secret, horigin, _, _, hsecret, honly⟩
  -- nothing is created and nothing rotated after the rotation
  have hrow : origin = { sampleSubscription with secret := "key" } := by
    rcases horigin with hstored | hcreated
    · simpa [hrows] using hstored
    · simp [sentAfterRotation] at hcreated
  have hkey : secret = "key" := by
    rcases hsecret with hsame | ⟨k, hcall, _⟩
    · rw [hsame, hrow]
    · simp [sentAfterRotation] at hcall
  subst hkey
  let used : Set (Text × Text) := {("key".toList, "1.x".toList), ("old".toList, "1.x".toList)}
  have hfree : CollisionFree sampleHmac used := by
    rintro p (rfl | rfl) q (rfl | rfl) hdigest
    · rfl
    · exact absurd hdigest (by decide)
    · exact absurd hdigest (by decide)
    · rfl
  have hbody : post.envelope.data.toList = ['x'] := by
    rw [hdata]
    decide
  have htext : signedText (post.sentAt / 1000 : Nat) ['x'] = "1.x".toList := by
    rw [htime]
    decide
  have hused : ("key".toList, signedText (post.sentAt / 1000 : Nat) post.envelope.data.toList) ∈ used := by
    rw [hbody, htext]
    exact Or.inl rfl
  have honly := fun secret' => honly used hfree secret' ['x'] none 2000 hused
  refine ⟨c₀, c, post, hrun₀, hrun, hmem, ?_, ?_⟩
  · refine (honly "key".toList (by rw [htext]; exact Or.inl rfl)).2 ⟨rfl, hbody.symm, ?_⟩
    rw [htime]
    decide +kernel
  · rw [← Bool.not_eq_true]
    intro hold
    have hsame := ((honly "old".toList (by rw [htext]; exact Or.inr rfl)).1 hold).1
    exact absurd hsame (by decide)

end SecretRotation

end Webhooks
end PaymentRail
