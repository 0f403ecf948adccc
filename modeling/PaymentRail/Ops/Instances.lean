import PaymentRail.Machine.Replicas
import PaymentRail.Ops.PauseHolds

/-!
# Instances — the switch on all instances

The rows of `system_flags` are shared by all instances of the rail, and each instance has its own copy
of them.  A pause or a resume writes the rows and the copy of its own instance; the others follow with
their next refresh.

- `instances` : the calls on all instances
- `Spread` : how far a switch has come
- `switch_reaches_instances` : after a refresh called when it has returned, every instance follows it
-/

namespace PaymentRail
namespace Ops

open Machine Collections

/-! ## All instances -/

abbrev Instance := Nat

/-- The table is shared, the map in memory is not. -/
def memory : Split Store Flags Flags where
  join := Store.mk
  shared := Store.flags
  own := Store.state
  shared_join := fun _ _ => rfl
  own_join := fun _ _ => rfl

abbrev Fleet := Calls (Replicas Instance Flags Flags) (Instance × Process) (Instance × Answer)

/-- The calls on all instances.  One that has stopped takes no step any more, and one that is started
anew is another instance. -/
def instances (cfg : Instance → Config) :
    Service (Replicas Instance Flags Flags) (Instance × Request) (Instance × Process) Reply
      (Instance × Answer) Empty :=
  Service.replicate memory fun i => service (cfg i)

/-- No instance has read the table yet. -/
def unread (flags : Flags) : Replicas Instance Flags Flags where
  shared := flags
  own := fun _ _ => none

/-- What a request switches its scopes to. -/
def Request.sets : Request → Option (Bool × List PauseScope)
  | .pause scopes _ _ _ => some (true, scopes)
  | .resume scopes _ => some (false, scopes)
  | .refresh => none

/-- The request does not switch the scope away from `on`. -/
def Request.Keeps (on : Bool) (scope : PauseScope) (r : Request) : Prop :=
  ∀ scopes, r.sets = some (!on, scopes) → scope ∉ scopes

namespace Process

/-- The call will not switch the scope away from `on`. -/
def Agrees (on : Bool) (scope : PauseScope) : Process → Prop
  | .save value _ current rest _ => value.paused = on ∨ scope ∉ current :: rest
  | .find _ => True

/-- The rows a refresh is about to apply say `on`. -/
def Reads (on : Bool) (scope : PauseScope) : Process → Prop
  | .find (some rows) => rows.paused scope = on
  | _ => True

/-- A switch to `on` has not written the row of the scope yet. -/
def Ahead (on : Bool) (scope : PauseScope) : Process → Prop
  | .save value _ current rest saved =>
      value.paused = on ∧ (scope ∈ rest ∨ (scope = current ∧ saved = false))
  | .find _ => False

instance (on : Bool) (scope : PauseScope) (p : Process) : Decidable (p.Agrees on scope) :=
  match p with
  | .save _ _ _ _ _ => inferInstanceAs (Decidable (_ ∨ _))
  | .find _ => isTrue trivial

instance (on : Bool) (scope : PauseScope) (p : Process) : Decidable (p.Reads on scope) :=
  match p with
  | .save _ _ _ _ _ => isTrue trivial
  | .find none => isTrue trivial
  | .find (some _) => inferInstanceAs (Decidable (_ = _))

end Process

/-! ## Steps of one instance -/

section Steps

variable {cfg : Config} {store store' : Store} {p : Process} {reply : Reply}
  {flow : Flow Process Answer} {on : Bool} {scope current : PauseScope} {value : PauseState}
  {before rest : List PauseScope}

theorem agrees_saveNext (h : value.paused = on ∨ scope ∉ rest) :
    (saveNext cfg store value before rest).Awaits fun q => q.Agrees on scope := by
  cases rest with
  | nil => trivial
  | cons next rest => exact h

theorem agrees_start {r : Request} (h : r.Keeps on scope) :
    (start cfg r store).2.Awaits fun q => q.Agrees on scope := by
  cases r with
  | refresh => trivial
  | pause scopes reason actor now =>
      refine agrees_saveNext ?_
      cases on with
      | true => exact Or.inl rfl
      | false => exact Or.inr (h scopes rfl)
  | resume scopes actor =>
      have hnext : (saveNext cfg store notPaused [] scopes).Awaits fun q => q.Agrees on scope := by
        refine agrees_saveNext ?_
        cases on with
        | true => exact Or.inr (h scopes rfl)
        | false => exact Or.inl rfl
      simp only [start]
      split
      · exact hnext
      · trivial

theorem Resumes.agrees (h : Resumes cfg store p reply store' flow) (hp : p.Agrees on scope) :
    flow.Awaits fun q => q.Agrees on scope := by
  cases h with
  | saved => exact hp
  | applied => exact agrees_saveNext (hp.imp_right fun hnot hmem => hnot (List.mem_cons_of_mem _ hmem))
  | read => trivial
  | refreshed => trivial
  | failed _ => trivial

/-- A copy follows a value that is saved by a call that agrees. -/
theorem paused_set_of_agrees {flags : Flags} {saved : Bool}
    (hp : (Process.save value before current rest saved).Agrees on scope)
    (h : flags.paused scope = on) : (flags.set current value).paused scope = on := by
  by_cases hscope : scope = current
  · subst hscope
    rw [paused_set_self]
    exact hp.resolve_right fun hnot => hnot List.mem_cons_self
  · rw [paused_set_of_ne hscope]
    exact h

theorem paused_refreshed_eq {rows : Flags} : (refreshed rows).paused scope = rows.paused scope := by
  cases hrow : rows scope with
  | none => simp [Flags.paused, refreshed, hrow, notPaused]
  | some value =>
      cases hvalue : value.paused with
      | true => simp [Flags.paused, refreshed, hrow, hvalue]
      | false => simp [Flags.paused, refreshed, hrow, hvalue, notPaused]

theorem Resumes.flags (h : Resumes cfg store p reply store' flow) (hp : p.Agrees on scope)
    (hflags : store.flags.paused scope = on) : store'.flags.paused scope = on := by
  cases h with
  | saved => exact paused_set_of_agrees hp hflags
  | _ => exact hflags

theorem Resumes.state (h : Resumes cfg store p reply store' flow) (hp : p.Agrees on scope)
    (hreads : p.Reads on scope) (hstate : store.state.paused scope = on) :
    store'.state.paused scope = on := by
  cases h with
  | applied => exact paused_set_of_agrees hp hstate
  | refreshed => exact paused_refreshed_eq.trans hreads
  | _ => exact hstate

theorem Resumes.reads (h : Resumes cfg store p reply store' flow)
    (hflags : store.flags.paused scope = on) : flow.Awaits fun q => q.Reads on scope := by
  cases h with
  | saved => trivial
  | @applied value before current rest =>
      cases rest with
      | nil => trivial
      | cons next rest => trivial
  | read => exact hflags
  | refreshed => trivial
  | failed _ => trivial

/-- A call begins with no rows read. -/
theorem reads_start (r : Request) : (start cfg r store).2.Awaits fun q => q.Reads on scope := by
  cases r with
  | refresh => trivial
  | pause scopes reason actor now =>
      cases scopes with
      | nil => trivial
      | cons first rest => trivial
  | resume scopes actor =>
      simp only [start]
      split
      · cases scopes with
        | nil => trivial
        | cons first rest => trivial
      · trivial

/-- A call that has the row still to write goes on so, or writes it. -/
theorem Resumes.ahead (h : Resumes cfg store p reply store' flow) (hp : p.Ahead on scope) :
    flow.Awaits (fun q => q.Ahead on scope ∨ store'.flags.paused scope = on) ∧
      flow.Answers fun a => ∀ x y, a ≠ .status x y := by
  cases h with
  | @saved value before current rest =>
      refine ⟨?_, trivial⟩
      rcases hp with ⟨hvalue, hrest | ⟨rfl, _⟩⟩
      · exact Or.inl ⟨hvalue, Or.inl hrest⟩
      · refine Or.inr ?_
        rw [paused_set_self]
        exact hvalue
  | @applied value before current rest =>
      rcases hp with ⟨hvalue, hrest | ⟨_, hsaved⟩⟩
      · cases rest with
        | nil => cases hrest
        | cons next rest =>
            refine ⟨Or.inl ⟨hvalue, ?_⟩, trivial⟩
            rcases List.mem_cons.1 hrest with rfl | hlater
            · exact Or.inr ⟨rfl, rfl⟩
            · exact Or.inl hlater
      · cases hsaved
  | read => exact hp.elim
  | refreshed => exact hp.elim
  | failed ha => exact ⟨trivial, ha⟩

/-- A call that switches a scope begins with its row still to write, or it is refused. -/
theorem ahead_start {r : Request} {scopes : List PauseScope} (hsets : r.sets = some (on, scopes))
    (hscope : scope ∈ scopes) :
    (start cfg r store).2.Awaits (fun q => q.Ahead on scope) ∧
      (start cfg r store).2.Answers fun a => ∀ x y, a ≠ .status x y := by
  have hnext : ∀ value : PauseState, value.paused = on →
      (saveNext cfg store value [] scopes).Awaits (fun q => q.Ahead on scope) ∧
        (saveNext cfg store value [] scopes).Answers fun a => ∀ x y, a ≠ .status x y := by
    intro value hvalue
    cases scopes with
    | nil => cases hscope
    | cons first rest =>
        refine ⟨⟨hvalue, ?_⟩, trivial⟩
        rcases List.mem_cons.1 hscope with rfl | hlater
        · exact Or.inr ⟨rfl, rfl⟩
        · exact Or.inl hlater
  cases r with
  | refresh => cases hsets
  | pause scopes reason actor now =>
      cases hsets
      exact hnext _ rfl
  | resume scopes actor =>
      cases hsets
      simp only [start]
      split
      · exact hnext _ rfl
      · exact ⟨trivial, fun x y hEq => Answer.noConfusion hEq⟩

end Steps

/-! ## How far a switch has come -/

/-- No call switches the scope away from `on`; the row says so, if `saved`; the refreshes of the
instances in `reading` apply no other rows; and those in `held` have it in memory. -/
abbrev Spread (on : Bool) (scope : PauseScope) (saved : Prop) (reading held : Set Instance) :
    Fleet → Prop :=
  Everywhere (fun flags => saved → flags.paused scope = on)
    (fun i state => i ∈ held → state.paused scope = on)
    fun i p => p.Agrees on scope ∧ (i ∈ reading → p.Reads on scope)

section Spread

variable {cfg : Instance → Config} {on : Bool} {scope : PauseScope} {saved : Prop}
  {reading held : Set Instance} {m : Move (Instance × Request) Reply Empty} {c c' : Fleet}
  {i j : Instance} {id k : CallId}

/-- The moves switch the scope away from `on` nowhere. -/
def Unopposed (on : Bool) (scope : PauseScope) (moves : List (Move (Instance × Request) Reply Empty)) :
    Prop :=
  ∀ id i r, .call id (i, r) ∈ moves → r.Keeps on scope

theorem unopposed_append {moves moves' : List (Move (Instance × Request) Reply Empty)} :
    Unopposed on scope (moves ++ moves') ↔ Unopposed on scope moves ∧ Unopposed on scope moves' := by
  constructor
  · intro h
    exact ⟨fun id i r hmem => h id i r (List.mem_append_left _ hmem),
      fun id i r hmem => h id i r (List.mem_append_right _ hmem)⟩
  · rintro ⟨h, h'⟩ id i r hmem
    rcases List.mem_append.1 hmem with hmem | hmem
    · exact h id i r hmem
    · exact h' id i r hmem

theorem Unopposed.keeps {moves : List (Move (Instance × Request) Reply Empty)}
    (h : Unopposed on scope moves) (hm : m ∈ moves) :
    ∀ id i r, m = .call id (i, r) → r.Keeps on scope := by
  rintro id i r rfl
  exact h id i r hm

/-- What the code of one instance does for it. -/
theorem local_spread (cfg : Config) (on : Bool) (scope : PauseScope) {saved reading held : Prop}
    (hreading : reading → saved) (hheld : held → reading) :
    Local memory (service cfg) (fun flags => saved → flags.paused scope = on)
      (fun state => held → state.paused scope = on)
      (fun p => p.Agrees on scope ∧ (reading → p.Reads on scope)) (Request.Keeps on scope) where
  start := by
    intro r t t' flow hr hI hJ hstart
    have hstore : (start cfg r t).1 = t := start_store cfg r t
    have hagrees : (start cfg r t).2.Awaits fun q => q.Agrees on scope := agrees_start hr
    have hreads : (start cfg r t).2.Awaits fun q => q.Reads on scope := reads_start r
    have hEq : start cfg r t = (t', flow) := hstart
    rw [hEq] at hstore hagrees hreads
    subst hstore
    refine ⟨hI, hJ, ?_⟩
    cases flow with
    | await q => exact ⟨hagrees, fun _ => hreads⟩
    | answer a => trivial
  resume := by
    intro id p reply t t' flow hI hJ hp hresume
    have hresumes := resumes_of_resume hresume
    refine ⟨fun hsaved => hresumes.flags hp.1 (hI hsaved), ?_, ?_⟩
    · exact fun h => hresumes.state hp.1 (hp.2 (hheld h)) (hJ h)
    · have hagrees := hresumes.agrees hp.1
      cases flow with
      | await q => exact ⟨hagrees, fun h => hresumes.reads (hI (hreading h))⟩
      | answer a => trivial

theorem Spread.step (hc : Spread on scope saved reading held c)
    (hreading : ∀ i ∈ reading, saved) (hheld : held ⊆ reading)
    (hm : ∀ id i r, m = .call id (i, r) → r.Keeps on scope)
    (h : (instances cfg).Steps c m c') : Spread on scope saved reading held c' :=
  Everywhere.step (fun i => local_spread (cfg i) on scope (hreading i) (@hheld i)) hc hm h

theorem Spread.run {moves : List (Move (Instance × Request) Reply Empty)}
    (hc : Spread on scope saved reading held c) (hreading : ∀ i ∈ reading, saved)
    (hheld : held ⊆ reading) (hunopposed : Unopposed on scope moves)
    (h : Machine.run (instances cfg).step moves c = some c') :
    Spread on scope saved reading held c' := by
  refine run_invariant_mem (P := Spread on scope saved reading held) ?_ hc h
  intro m hm d d' hd hstep
  exact Spread.step hd hreading hheld (hunopposed.keeps hm) (Service.steps_of_step hstep)

/-- The row has been written. -/
theorem Spread.written (hc : Spread on scope False ∅ ∅ c) (h : c.store.shared.paused scope = on) :
    Spread on scope True ∅ ∅ c :=
  ⟨fun _ => h, hc.own, hc.process⟩

/-! ## Until the call returns -/

/-- The call has the row still to write, it has failed, or the row is written. -/
def Switching (on : Bool) (scope : PauseScope) (id : CallId) (c : Fleet) : Prop :=
  (Spread on scope False ∅ ∅ c ∧ c.WaitsAs (fun q => q.2.Ahead on scope) id) ∨
    c.AnsweredAs (fun a => ∀ x y, a.2 ≠ .status x y) id ∨ Spread on scope True ∅ ∅ c

theorem Switching.step (hc : Switching on scope id c)
    (hm : ∀ id i r, m = .call id (i, r) → r.Keeps on scope)
    (h : (instances cfg).Steps c m c') : Switching on scope id c' := by
  rcases hc with ⟨hspread, hunanswered, q, hq, hahead⟩ | ⟨hprocess, a, ha, hfailed⟩ | hspread
  · have hspread' := hspread.step (fun i hi => Set.notMem_empty i hi) (Set.empty_subset _) hm h
    by_cases hid : m.callId = some id
    · cases h with
      | external e store h => cases e
      | call l request hnew _ =>
          cases hid
          rw [hnew] at hq
          cases hq
      | resume l process reply store flow hp hresume =>
          cases hid
          obtain ⟨j, p⟩ := process
          rw [hp] at hq
          cases hq
          rcases resume_replicate hresume with ⟨t, next, hinner, rfl, rfl⟩
          have hnext := (resumes_of_resume hinner).ahead hahead
          -- a status is answered when all rows are written, so an answer now is a failure
          cases next with
          | answer a => exact Or.inr (Or.inl (Calls.answeredAs_go hunanswered hnext.2))
          | await p' =>
              rcases hnext.1 with hgoes | hflags
              · exact Or.inl ⟨hspread', Calls.waitsAs_go hunanswered hgoes⟩
              · refine Or.inr (Or.inr (hspread'.written ?_))
                rw [Calls.store_go]
                exact hflags
    · have hframe := h.frame hid
      exact Or.inl ⟨hspread', hframe.2.trans hunanswered, q, hframe.1.trans hq, hahead⟩
  · have hframe := h.frame (h.finished hprocess ha)
    exact Or.inr (Or.inl ⟨hframe.1.trans hprocess, a, hframe.2.trans ha, hfailed⟩)
  · exact Or.inr (Or.inr (hspread.step (fun _ _ => trivial) (Set.empty_subset _) hm h))

theorem Switching.run {moves : List (Move (Instance × Request) Reply Empty)}
    (hc : Switching on scope id c) (hunopposed : Unopposed on scope moves)
    (h : Machine.run (instances cfg).step moves c = some c') : Switching on scope id c' := by
  refine run_invariant_mem ?_ hc h
  intro m hm d d' hd hstep
  exact hd.step (hunopposed.keeps hm) (Service.steps_of_step hstep)

theorem Switching.written {x y : PauseState} (hc : Switching on scope id c)
    (h : c.answered id = some (j, .status x y)) : Spread on scope True ∅ ∅ c := by
  rcases hc with ⟨_, hunanswered, _⟩ | ⟨_, a, ha, hfailed⟩ | hspread
  · rw [hunanswered] at h
    cases h
  · rw [h] at ha
    cases ha
    exact absurd rfl (hfailed x y)
  · exact hspread

theorem switching_of_call {r : Request} {scopes : List PauseScope} (hsets : r.sets = some (on, scopes))
    (hscope : scope ∈ scopes) (hagrees : ∀ l e p, c.process l = some (e, p) → p.Agrees on scope)
    (h : (instances cfg).step (.call id (j, r)) c = some c') : Switching on scope id c' := by
  -- nothing is known of the row yet, only that nobody else is about to write it
  have hspread : Spread on scope False ∅ ∅ c :=
    ⟨False.elim, fun i hi => (Set.notMem_empty i hi).elim, fun l e p hp =>
      ⟨hagrees l e p hp, fun hi => (Set.notMem_empty e hi).elim⟩⟩
  have hkeeps : ∀ id' i' r', (.call id (j, r) : Move (Instance × Request) Reply Empty) =
      .call id' (i', r') → r'.Keeps on scope := by
    rintro _ _ _ ⟨⟩ scopes' hsets'
    rw [hsets] at hsets'
    cases on with
    | _ => cases hsets'
  have hsteps := Service.steps_of_step h
  have hspread' := hspread.step (fun i hi => Set.notMem_empty i hi) (Set.empty_subset _)
    hkeeps hsteps
  cases hsteps with
  | call l request hnew hunanswered =>
      have hnext : ((service (cfg j)).start r (c.store.view memory j)).2.Awaits
            (fun q => q.Ahead on scope) ∧
          ((service (cfg j)).start r (c.store.view memory j)).2.Answers fun a =>
            ∀ x y, a ≠ .status x y := ahead_start hsets hscope
      rw [instances, start_replicate] at hspread' ⊢
      cases hflow : ((service (cfg j)).start r (c.store.view memory j)).2 with
      | await p =>
          rw [hflow] at hnext hspread'
          exact Or.inl ⟨hspread', Calls.waitsAs_go hunanswered hnext.1⟩
      | answer a =>
          rw [hflow] at hnext
          exact Or.inr (Or.inl (Calls.answeredAs_go hunanswered hnext.2))

/-! ## Until the refresh returns -/

/-- The refresh of the instance is under way, or its copy follows the row. -/
def Following (on : Bool) (scope : PauseScope) (i : Instance) (k : CallId) (c : Fleet) : Prop :=
  (Spread on scope True {i} ∅ c ∧ c.WaitsAs (fun q => ∃ rows, q = (i, .find rows)) k) ∨
    Spread on scope True {i} {i} c

theorem Following.step (hc : Following on scope i k c)
    (hm : ∀ id i r, m = .call id (i, r) → r.Keeps on scope)
    (hok : ∀ message, m ≠ .resume k (.failed message)) (h : (instances cfg).Steps c m c') :
    Following on scope i k c' := by
  rcases hc with ⟨hspread, hunanswered, q, hq, rows, rfl⟩ | hspread
  · have hspread' := hspread.step (fun _ _ => trivial) (Set.empty_subset _) hm h
    by_cases hk : m.callId = some k
    · cases h with
      | external e store h => cases e
      | call l request hnew _ =>
          cases hk
          rw [hnew] at hq
          cases hq
      | resume l process reply store flow hp hresume =>
          cases hk
          rw [hp] at hq
          cases hq
          -- the row said so already when the refresh read it
          have hreads := (hspread.process k i _ hp).2 rfl
          rcases resume_replicate hresume with ⟨t, next, hinner, rfl, rfl⟩
          cases resumes_of_resume hinner with
          | read => exact Or.inl ⟨hspread', Calls.waitsAs_go hunanswered ⟨_, rfl⟩⟩
          | failed _ => exact absurd rfl (hok _)
          | @refreshed rows =>
              refine Or.inr ⟨hspread'.shared, ?_, hspread'.process⟩
              rintro j rfl
              rw [Calls.store_go, own_put_self]
              exact paused_refreshed_eq.trans hreads
    · have hframe := h.frame hk
      exact Or.inl ⟨hspread', hframe.2.trans hunanswered, _, hframe.1.trans hq, rows, rfl⟩
  · exact Or.inr (hspread.step (fun _ _ => trivial) subset_rfl hm h)

theorem Following.run {moves : List (Move (Instance × Request) Reply Empty)}
    (hc : Following on scope i k c) (hunopposed : Unopposed on scope moves)
    (hok : ∀ message, .resume k (.failed message) ∉ moves)
    (h : Machine.run (instances cfg).step moves c = some c') : Following on scope i k c' := by
  refine run_invariant_mem ?_ hc h
  intro m hm d d' hd hstep
  refine hd.step (hunopposed.keeps hm) ?_ (Service.steps_of_step hstep)
  rintro message rfl
  exact hok message hm

theorem Following.answered {a : Instance × Answer} (hc : Following on scope i k c)
    (h : c.answered k = some a) : Spread on scope True {i} {i} c := by
  rcases hc with ⟨_, hunanswered, _⟩ | hspread
  · rw [hunanswered] at h
    cases h
  · exact hspread

theorem following_of_call (hc : Spread on scope True ∅ ∅ c)
    (hreads : ∀ l p, c.process l = some (i, p) → p.Reads on scope)
    (h : (instances cfg).step (.call k (i, .refresh)) c = some c') : Following on scope i k c' := by
  have hspread : Spread on scope True {i} ∅ c := by
    refine ⟨hc.shared, hc.own, fun l e p hp => ⟨(hc.process l e p hp).1, ?_⟩⟩
    rintro rfl
    exact hreads l p hp
  have hkeeps : ∀ id' i' r', (.call k (i, .refresh) : Move (Instance × Request) Reply Empty) =
      .call id' (i', r') → r'.Keeps on scope := by
    rintro _ _ _ ⟨⟩ scopes hsets
    cases hsets
  have hsteps := Service.steps_of_step h
  have hspread' := hspread.step (fun _ _ => trivial) (Set.empty_subset _)
    hkeeps hsteps
  cases hsteps with
  | call l request hnew hunanswered =>
      exact Or.inl ⟨hspread', Calls.waitsAs_go hunanswered ⟨none, rfl⟩⟩

end Spread

/-- A pause or a resume reaches every instance: once it has returned, and as long as no call switches
the scope back, an instance follows it from the end of any refresh that is called then and does not
fail, if no refresh of this instance is about to apply rows that say otherwise. -/
theorem switch_reaches_instances (cfg : Instance → Config)
    (during waiting after : List (Move (Instance × Request) Reply Empty)) (id k : CallId)
    (i j : Instance) (r : Request) (on : Bool) (scopes : List PauseScope) (scope : PauseScope)
    (x y : PauseState) (c₀ c₁ c₂ c₃ c₄ c : Fleet)
    (hsets : r.sets = some (on, scopes)) (hscope : scope ∈ scopes)
    (hagrees : ∀ l e p, c₀.process l = some (e, p) → p.Agrees on scope)
    (hcall : (instances cfg).step (.call id (j, r)) c₀ = some c₁)
    (hduring : run (instances cfg).step during c₁ = some c₂)
    (hreturn : c₂.answered id = some (j, .status x y))
    (hwaiting : run (instances cfg).step waiting c₂ = some c₃)
    (hreads : ∀ l p, c₃.process l = some (i, p) → p.Reads on scope)
    (hrefresh : (instances cfg).step (.call k (i, .refresh)) c₃ = some c₄)
    (hafter : run (instances cfg).step after c₄ = some c)
    (hread : c.answered k = some (i, .refreshed)) (hok : ∀ message, .resume k (.failed message) ∉ after)
    (hunopposed : Unopposed on scope (during ++ waiting ++ after)) :
    c.store.shared.paused scope = on ∧
      (cfg i).isPaused (c.store.view memory i) scope = ((cfg i).forced.contains scope || on) := by
  rcases unopposed_append.1 hunopposed with ⟨hearlier, hunopposedAfter⟩
  rcases unopposed_append.1 hearlier with ⟨hunopposedDuring, hunopposedWaiting⟩
  -- the row
  have hswitching : Switching on scope id c₂ :=
    (switching_of_call hsets hscope hagrees hcall).run hunopposedDuring hduring
  have hwritten : Spread on scope True ∅ ∅ c₃ :=
    (hswitching.written hreturn).run (fun _ _ => trivial) subset_rfl hunopposedWaiting hwaiting
  -- the copy of the instance
  have hfollowing : Following on scope i k c :=
    (following_of_call hwritten hreads hrefresh).run hunopposedAfter hok hafter
  have hspread := hfollowing.answered hread
  refine ⟨hspread.shared trivial, ?_⟩
  have hstate := hspread.own i rfl
  rw [Config.isPaused]
  exact congrArg _ hstate

def samplePause₀ : Instance × Request := (0, .pause [.settlement] "incident 42" "ops-1" 0)

/-- The instance 0 lifts the other scope meanwhile. -/
def refreshOn₁ : List (Move (Instance × Request) Reply Empty) :=
  [.resume 3 .done, .call 4 (0, .resume [.streaming] "ops-2"), .resume 4 .done, .resume 3 .done]

/-- The instance 0 pauses; the instance 1 applies rows that are older, and then it refreshes. -/
theorem switch_reaches_instances_stale :
    ∃ c₀ c₁ c₂ c₃ c₄ c x y,
      run (instances fun _ => sampleConfig).step [.call 2 (1, .refresh), .resume 2 .done]
        (.start (unread fun _ => none)) = some c₀ ∧
      (instances fun _ => sampleConfig).step (.call 1 samplePause₀) c₀ = some c₁ ∧
      run (instances fun _ => sampleConfig).step [.resume 1 .done, .resume 1 .done] c₁ = some c₂ ∧
      c₂.answered 1 = some (0, .status x y) ∧
      run (instances fun _ => sampleConfig).step [.resume 2 .done] c₂ = some c₃ ∧
      sampleConfig.isPaused (c₃.store.view memory 1) .settlement = false ∧
      (instances fun _ => sampleConfig).step (.call 3 (1, .refresh)) c₃ = some c₄ ∧
      run (instances fun _ => sampleConfig).step refreshOn₁ c₄ = some c ∧
      c.store.shared.paused .settlement = true ∧
      sampleConfig.isPaused (c.store.view memory 1) .settlement = true := by
  have hreached : ((run (instances fun _ => sampleConfig).step [.call 2 (1, .refresh), .resume 2 .done]
      (.start (unread fun _ => none))).any fun c₀ =>
        (c₀.processes.all fun entry => decide (entry.2.2.Agrees true .settlement)) &&
        ((instances fun _ => sampleConfig).step (.call 1 samplePause₀) c₀).any fun c₁ =>
          (run (instances fun _ => sampleConfig).step [.resume 1 .done, .resume 1 .done] c₁).any fun c₂ =>
            c₂.answered 1 = some (0, sampleConfig.answer (c₂.store.view memory 0)) &&
            (run (instances fun _ => sampleConfig).step [.resume 2 .done] c₂).any fun c₃ =>
              (c₃.processes.all fun entry => decide (entry.2.2.Reads true .settlement)) &&
              sampleConfig.isPaused (c₃.store.view memory 1) .settlement = false &&
              ((instances fun _ => sampleConfig).step (.call 3 (1, .refresh)) c₃).any fun c₄ =>
                (run (instances fun _ => sampleConfig).step refreshOn₁ c₄).any fun c =>
                  c.answered 3 = some (1, .refreshed)) = true := by
    decide +kernel
  rcases (Option.any_eq_true _ _).1 hreached with ⟨c₀, hc₀, hrest₀⟩
  rcases Bool.and_eq_true_iff.1 hrest₀ with ⟨hagrees, hrest₀⟩
  rcases (Option.any_eq_true _ _).1 hrest₀ with ⟨c₁, hc₁, hrest₁⟩
  rcases (Option.any_eq_true _ _).1 hrest₁ with ⟨c₂, hc₂, hrest₂⟩
  rcases Bool.and_eq_true_iff.1 hrest₂ with ⟨hreturn, hrest₂⟩
  rcases (Option.any_eq_true _ _).1 hrest₂ with ⟨c₃, hc₃, hrest₃⟩
  rcases Bool.and_eq_true_iff.1 hrest₃ with ⟨hrows, hrest₃⟩
  rcases Bool.and_eq_true_iff.1 hrows with ⟨hreads, hlifted⟩
  rcases (Option.any_eq_true _ _).1 hrest₃ with ⟨c₄, hc₄, hrest₄⟩
  rcases (Option.any_eq_true _ _).1 hrest₄ with ⟨c, hc, hread⟩
  have hagrees' : ∀ l e p, c₀.process l = some (e, p) → p.Agrees true .settlement :=
    fun l e p hp => of_decide_eq_true (List.all_eq_true.1 hagrees _ (Calls.mem_of_process hp))
  have hreads' : ∀ l p, c₃.process l = some (1, p) → p.Reads true .settlement :=
    fun l p hp => of_decide_eq_true (List.all_eq_true.1 hreads _ (Calls.mem_of_process hp))
  have hunopposed : Unopposed true .settlement
      ([.resume 1 .done, .resume 1 .done] ++ [.resume 2 .done] ++ refreshOn₁) := by
    intro id i r hmem scopes hsets
    simp only [refreshOn₁, List.cons_append, List.nil_append, List.mem_cons, List.not_mem_nil,
      reduceCtorEq, false_or, or_false, Move.call.injEq, Prod.mk.injEq] at hmem
    rw [hmem.2.2] at hsets
    cases hsets
    decide
  refine ⟨c₀, c₁, c₂, c₃, c₄, c, _, _, hc₀, hc₁, hc₂, of_decide_eq_true hreturn, hc₃,
    of_decide_eq_true hlifted, hc₄, hc, ?_⟩
  exact switch_reaches_instances (fun _ => sampleConfig) _ _ refreshOn₁ 1 3 1 0 _ true [.settlement]
    .settlement _ _ c₀ c₁ c₂ c₃ c₄ c rfl (by decide) hagrees' hc₁ hc₂ (of_decide_eq_true hreturn) hc₃
    hreads' hc₄ hc (of_decide_eq_true hread) (by simp [refreshOn₁]) hunopposed

end Ops
end PaymentRail
