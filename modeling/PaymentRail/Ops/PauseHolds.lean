import PaymentRail.Ops.PauseService

/-!
# PauseHolds — what keeps a scope paused

`pause` and `resume` write the row of a scope and then its copy in memory; `refresh` overwrites the
copy with rows that it has read earlier.  Two orders of these steps undo a pause that has returned:

* a refresh applies rows that were read before the pause wrote its own (`stale_refresh_lifts_pause`);
* a resume that was called before the pause returned writes its row behind the one of the pause.

In the runs without them (`Settled`) a scope is paused from the moment `pause` has returned until the
next `resume` of the scope is called (`pause_holds`).
-/

namespace PaymentRail
namespace Ops

open Machine Collections

/-! ## Calls -/

namespace Process

/-- A pause has written the row of the scope. -/
def wrote (scope : PauseScope) : Process → Bool
  | .save value before current _ saved =>
      value.paused && (before.contains scope || (decide (current = scope) && saved))
  | .find _ => false

/-- A pause has set the scope in memory. -/
def applied (scope : PauseScope) : Process → Bool
  | .save value before _ _ _ => value.paused && before.contains scope
  | .find _ => false

/-- A resume has the scope still to do. -/
def lifts (scope : PauseScope) : Process → Bool
  | .save value _ current rest _ => !value.paused && (current :: rest).contains scope
  | .find _ => false

end Process

/-- The steps of `resume`. -/
inductive Resumes (cfg : Config) (store : Store) :
    Process → Reply → Store → Flow Process Answer → Prop
  | saved {value : PauseState} {before : List PauseScope} {scope : PauseScope}
      {rest : List PauseScope} :
      Resumes cfg store (.save value before scope rest false) .done
        { store with flags := store.flags.set scope value }
        (.await (.save value before scope rest true))
  | applied {value : PauseState} {before : List PauseScope} {scope : PauseScope}
      {rest : List PauseScope} :
      Resumes cfg store (.save value before scope rest true) .done
        { store with state := store.state.set scope value }
        (saveNext cfg { store with state := store.state.set scope value } value (before ++ [scope])
          rest)
  | read : Resumes cfg store (.find none) .done store (.await (.find (some store.flags)))
  | refreshed {rows : Flags} :
      Resumes cfg store (.find (some rows)) .done { store with state := refreshed rows }
        (.answer .refreshed)
  | failed {p : Process} {message : String} {a : Answer} (ha : ∀ x y, a ≠ .status x y) :
      Resumes cfg store p (.failed message) store (.answer a)

theorem resumes_of_resume {cfg : Config} {store store' : Store} {p : Process} {reply : Reply}
    {flow : Flow Process Answer} (h : resume cfg p reply store = some (store', flow)) :
    Resumes cfg store p reply store' flow := by
  cases p with
  | save value before scope rest saved =>
      cases reply with
      | done =>
          cases saved with
          | false =>
              cases h
              exact .saved
          | true =>
              cases h
              exact .applied
      | failed message =>
          cases saved with
          | _ =>
              cases h
              exact .failed fun _ _ ha => Answer.noConfusion ha
  | find rows =>
      cases reply with
      | done =>
          cases rows with
          | none =>
              cases h
              exact .read
          | some rows =>
              cases h
              exact .refreshed
      | failed message =>
          cases rows with
          | _ =>
              cases h
              exact .failed fun _ _ ha => Answer.noConfusion ha

/-! ## Flags -/

section Flags

variable {flags : Flags} {scope other : PauseScope} {value : PauseState}

theorem paused_set_self : (flags.set scope value).paused scope = value.paused := by
  simp [Flags.paused, Flags.set]

theorem paused_set_of_ne (h : other ≠ scope) :
    (flags.set scope value).paused other = flags.paused other := by
  simp [Flags.paused, Flags.set, h]

/-- A pause pauses, and a resume of another scope leaves the scope alone. -/
theorem paused_set (h : flags.paused other = true)
    (hlift : value.paused = true ∨ other ≠ scope) : (flags.set scope value).paused other = true := by
  by_cases hEq : other = scope
  · subst hEq
    rw [paused_set_self]
    exact hlift.resolve_right fun hne => hne rfl
  · rw [paused_set_of_ne hEq]
    exact h

theorem paused_refreshed {rows : Flags} (h : rows.paused scope = true) :
    (refreshed rows).paused scope = true := by
  rcases (Option.any_eq_true _ _).1 h with ⟨value, hvalue, hpaused⟩
  simp [Flags.paused, refreshed, hvalue, hpaused]

end Flags

/-! ## The condition -/

/-- Nobody undoes a pause behind its back:

* a resume is not called while a pause that has written one of its scopes has not returned;
* a pause does not write the row of a scope that a resume has still to do;
* a refresh does not lift a pause from memory that the table holds. -/
def settled (m : Move Request Reply Empty) (c : Calls Store Process Answer) : Bool :=
  match m with
  | .call _ (.resume scopes _) =>
      c.processes.all fun entry => scopes.all fun scope => !entry.2.wrote scope
  | .resume id .done =>
      match c.process id with
      | some (.save value _ scope _ false) =>
          !value.paused || c.processes.all fun entry => !entry.2.lifts scope
      | some (.find (some rows)) =>
          pauseScopes.all fun scope =>
            !(c.store.flags.paused scope && c.store.state.paused scope) || rows.paused scope
      | _ => true
  | _ => true

def Settled (m : Move Request Reply Empty) (c : Calls Store Process Answer) : Prop :=
  settled m c = true

instance (m : Move Request Reply Empty) (c : Calls Store Process Answer) :
    Decidable (Settled m c) := inferInstanceAs (Decidable (_ = true))

section Invariant

variable {cfg : Config} {m : Move Request Reply Empty} {c c' : Calls Store Process Answer}
  {scope : PauseScope}

theorem mem_processes {id : CallId} {p : Process} (h : c.process id = some p) :
    (id, p) ∈ c.processes := by
  rcases Option.map_eq_some_iff.1 h with ⟨entry, hentry, rfl⟩
  have hid : entry.1 = id := Table.key_of_lookup hentry
  rw [← hid]
  exact Table.mem_of_lookup hentry

theorem wrote_of_settled {id : CallId} {scopes : List PauseScope} {actor : String}
    (h : Settled (.call id (.resume scopes actor)) c) {k : CallId} {p : Process}
    (hp : c.process k = some p) (hwrote : p.wrote scope = true) : scope ∉ scopes := by
  intro hmem
  have hall := List.all_eq_true.1 (List.all_eq_true.1 h (k, p) (mem_processes hp)) scope hmem
  simp [hwrote] at hall

theorem lifts_of_settled {id : CallId} {value : PauseState} {before rest : List PauseScope}
    (h : Settled (.resume id .done) c) (hp : c.process id = some (.save value before scope rest false))
    (hvalue : value.paused = true) {k : CallId} {q : Process} (hq : c.process k = some q) :
    q.lifts scope = false := by
  simp only [Settled, settled, hp, hvalue, Bool.not_true, Bool.false_or] at h
  have hall := List.all_eq_true.1 h (k, q) (mem_processes hq)
  simpa using hall

theorem rows_of_settled {id : CallId} {rows : Flags} (h : Settled (.resume id .done) c)
    (hp : c.process id = some (.find (some rows))) (hflags : c.store.flags.paused scope = true)
    (hstate : c.store.state.paused scope = true) : rows.paused scope = true := by
  simp only [Settled, settled, hp] at h
  have hscope : scope ∈ pauseScopes := by
    cases scope with
    | _ => decide
  have hall := List.all_eq_true.1 h scope hscope
  simpa [hflags, hstate] using hall

/-! ## The invariant -/

/-- The row of the scope says paused, and no resume is about to change that. -/
structure Kept (c : Calls Store Process Answer) (scope : PauseScope) : Prop where
  flags : c.store.flags.paused scope = true
  lifts : ∀ id p, c.process id = some p → p.lifts scope = false

/-- The pause is in memory as well. -/
structure Held (c : Calls Store Process Answer) (scope : PauseScope) : Prop extends Kept c scope where
  state : c.store.state.paused scope = true

/-- What a pause has done so far is kept. -/
structure Invariant (c : Calls Store Process Answer) : Prop where
  wrote : ∀ id p scope, c.process id = some p → p.wrote scope = true → Kept c scope
  applied : ∀ id p scope, c.process id = some p → p.applied scope = true → Held c scope

/-- A call that saves a scope leaves a scope alone that it does not lift. -/
theorem ne_of_lifts {value : PauseState} {before rest : List PauseScope} {current : PauseScope}
    {saved : Bool} (h : (Process.save value before current rest saved).lifts scope = false) :
    value.paused = true ∨ scope ≠ current := by
  cases hvalue : value.paused with
  | true => exact Or.inl rfl
  | false =>
      refine Or.inr ?_
      rintro rfl
      simp [Process.lifts, hvalue] at h

/-- A call that goes on lifts nothing that it did not lift before. -/
theorem Resumes.lifts {store store' : Store} {p : Process} {reply : Reply}
    {flow : Flow Process Answer} (h : Resumes cfg store p reply store' flow)
    (hp : p.lifts scope = false) : flow.Awaits fun q => q.lifts scope = false := by
  cases h with
  | saved => exact hp
  | @applied value before current rest =>
      cases rest with
      | nil => trivial
      | cons next rest =>
          cases hvalue : value.paused with
          | true => simp [saveNext, Flow.Awaits, Process.lifts, hvalue]
          | false =>
              simp only [Process.lifts, hvalue, Bool.not_false, Bool.true_and] at hp
              simp only [saveNext, Flow.Awaits, Process.lifts, hvalue, Bool.not_false, Bool.true_and]
              simp only [List.contains_cons, Bool.or_eq_false_iff] at hp ⊢
              exact hp.2
  | read => rfl
  | refreshed => trivial
  | failed _ => trivial

theorem start_store (cfg : Config) (r : Request) (store : Store) : (start cfg r store).1 = store := by
  cases r with
  | pause scopes reason actor now => rfl
  | refresh => rfl
  | resume scopes actor =>
      simp only [start]
      split
      · rfl
      · rfl

/-- A call begins with nothing written. -/
theorem start_wrote (cfg : Config) (r : Request) (store : Store) (scope : PauseScope) :
    (start cfg r store).2.Awaits fun q => q.wrote scope = false ∧ q.applied scope = false := by
  have hnext : ∀ value scopes, (saveNext cfg store value [] scopes).Awaits fun q =>
      q.wrote scope = false ∧ q.applied scope = false := by
    intro value scopes
    cases scopes with
    | nil => trivial
    | cons current rest => simp [saveNext, Flow.Awaits, Process.wrote, Process.applied]
  cases r with
  | pause scopes reason actor now => exact hnext _ scopes
  | refresh => exact ⟨rfl, rfl⟩
  | resume scopes actor =>
      simp only [start]
      split
      · exact hnext _ scopes
      · trivial

/-- Only a resume of the scope begins to lift it. -/
theorem start_lifts {r : Request} (h : ∀ scopes actor, r = .resume scopes actor → scope ∉ scopes)
    (cfg : Config) (store : Store) : (start cfg r store).2.Awaits fun q => q.lifts scope = false := by
  cases r with
  | pause scopes reason actor now =>
      cases scopes with
      | nil => trivial
      | cons current rest => rfl
  | refresh => rfl
  | resume scopes actor =>
      have hscope := h scopes actor rfl
      simp only [start]
      split
      · cases scopes with
        | nil => trivial
        | cons current rest => simpa [saveNext, Flow.Awaits, Process.lifts, notPaused] using hscope
      · trivial

/-- A pause that has been written is kept by every step but a call of a resume of its scope. -/
theorem Kept.step (hk : Kept c scope) (h : (service cfg).Steps c m c')
    (hcall : ∀ id scopes actor, m = .call id (.resume scopes actor) → scope ∉ scopes) :
    Kept c' scope := by
  cases h with
  | external e store h => cases e
  | call id r hnew hunanswered =>
      have hstore : ((service cfg).start r c.store).1 = c.store := start_store cfg r c.store
      rw [hstore]
      refine ⟨by rw [Calls.store_go]; exact hk.flags, ?_⟩
      intro k q hq
      rcases Calls.of_process_go hq with ⟨_, hflow⟩ | ⟨_, hold⟩
      · have hother : ∀ scopes actor, r = .resume scopes actor → scope ∉ scopes := by
          rintro scopes actor rfl
          exact hcall id scopes actor rfl
        have hstart := start_lifts hother cfg c.store
        have hflow' : (start cfg r c.store).2 = .await q := hflow
        rw [hflow'] at hstart
        exact hstart
      · exact hk.lifts k q hold
  | resume id p i store flow hp hresume =>
      have hresumes := resumes_of_resume hresume
      refine ⟨?_, ?_⟩
      · rw [Calls.store_go]
        cases hresumes with
        | saved => exact paused_set hk.flags (ne_of_lifts (hk.lifts id _ hp))
        | _ => exact hk.flags
      · intro k q hq
        rcases Calls.of_process_go hq with ⟨_, hflow⟩ | ⟨_, hold⟩
        · have hawaits := hresumes.lifts (hk.lifts id p hp)
          rw [hflow] at hawaits
          exact hawaits
        · exact hk.lifts k q hold

/-- A pause in memory is kept as well, if no refresh is out of date. -/
theorem Held.step (hh : Held c scope) (hsettled : Settled m c) (h : (service cfg).Steps c m c')
    (hcall : ∀ id scopes actor, m = .call id (.resume scopes actor) → scope ∉ scopes) :
    Held c' scope := by
  refine ⟨hh.toKept.step h hcall, ?_⟩
  cases h with
  | external e store h => cases e
  | call id r hnew hunanswered =>
      have hstore : ((service cfg).start r c.store).1 = c.store := start_store cfg r c.store
      rw [Calls.store_go, hstore]
      exact hh.state
  | resume id p i store flow hp hresume =>
      rw [Calls.store_go]
      cases resumes_of_resume hresume with
      | applied => exact paused_set hh.state (ne_of_lifts (hh.lifts id _ hp))
      | refreshed => exact paused_refreshed (rows_of_settled hsettled hp hh.flags hh.state)
      | _ => exact hh.state

/-- What a call has written, it had written before, or it writes it now. -/
theorem Resumes.wrote {store store' : Store} {p : Process} {reply : Reply}
    {flow : Flow Process Answer} (h : Resumes cfg store p reply store' flow) (scope : PauseScope) :
    flow.Awaits fun q => q.wrote scope = true → p.wrote scope = true ∨
      ∃ value before rest, p = .save value before scope rest false ∧ value.paused = true ∧
        reply = .done ∧ store'.flags.paused scope = true := by
  cases h with
  | @saved value before current rest =>
      intro hwrote
      simp only [Process.wrote, Bool.and_eq_true, Bool.or_eq_true, decide_eq_true_eq] at hwrote
      rcases hwrote with ⟨hvalue, hbefore | ⟨rfl, _⟩⟩
      · exact Or.inl (by simp only [Process.wrote, hvalue, hbefore, Bool.true_or, Bool.and_self])
      · exact Or.inr ⟨value, before, rest, rfl, hvalue, rfl, by rw [paused_set_self]; exact hvalue⟩
  | @applied value before current rest =>
      cases rest with
      | nil => trivial
      | cons next rest =>
          intro hwrote
          refine Or.inl ?_
          simp only [Process.wrote, Bool.and_eq_true, Bool.or_eq_true, decide_eq_true_eq,
            List.contains_iff_mem, List.mem_append, List.mem_singleton] at hwrote ⊢
          rcases hwrote with ⟨hvalue, (hbefore | rfl) | ⟨_, hsaved⟩⟩
          · exact ⟨hvalue, Or.inl hbefore⟩
          · exact ⟨hvalue, Or.inr ⟨rfl, trivial⟩⟩
          · cases hsaved
  | read => exact nofun
  | refreshed => trivial
  | failed _ => trivial

/-- What a call has set in memory, it had set before, or it sets it now. -/
theorem Resumes.sets {store store' : Store} {p : Process} {reply : Reply}
    {flow : Flow Process Answer} (h : Resumes cfg store p reply store' flow) (scope : PauseScope) :
    flow.Awaits fun q => q.applied scope = true →
      p.applied scope = true ∨ store'.state.paused scope = true := by
  cases h with
  | saved => exact Or.inl
  | @applied value before current rest =>
      cases rest with
      | nil => trivial
      | cons next rest =>
          intro happlied
          simp only [Process.applied, Bool.and_eq_true, List.contains_iff_mem, List.mem_append,
            List.mem_singleton] at happlied ⊢
          rcases happlied with ⟨hvalue, hbefore | rfl⟩
          · exact Or.inl ⟨hvalue, hbefore⟩
          · exact Or.inr (by rw [paused_set_self]; exact hvalue)
  | read => exact nofun
  | refreshed => trivial
  | failed _ => trivial

theorem wrote_of_applied {q : Process} (h : q.applied scope = true) : q.wrote scope = true := by
  cases q with
  | find rows => cases h
  | save value before current rest saved =>
      simp only [Process.applied, Process.wrote, Bool.and_eq_true, Bool.or_eq_true] at h ⊢
      exact ⟨h.1, Or.inl h.2⟩

/-- A pause lifts nothing. -/
theorem lifts_of_wrote {q : Process} (h : q.wrote scope = true) (other : PauseScope) :
    q.lifts other = false := by
  cases q with
  | find rows => rfl
  | save value before current rest saved =>
      simp only [Process.wrote, Bool.and_eq_true] at h
      simp [Process.lifts, h.1]

theorem Invariant.step (hinv : Invariant c) (hsettled : Settled m c)
    (h : (service cfg).Steps c m c') : Invariant c' := by
  -- a resume of a scope that a pause has written is not called
  have hcall : ∀ k p scope, c.process k = some p → p.wrote scope = true →
      ∀ id scopes actor, m = .call id (.resume scopes actor) → scope ∉ scopes := by
    rintro k p scope hp hwrote id scopes actor rfl
    exact wrote_of_settled hsettled hp hwrote
  have hwrote : ∀ k q scope, c'.process k = some q → q.wrote scope = true → Kept c' scope := by
    intro k q scope hq hqwrote
    have hsteps := h
    cases h with
    | external e store h => cases e
    | call id r hnew hunanswered =>
        rcases Calls.of_process_go hq with ⟨_, hflow⟩ | ⟨_, hold⟩
        · have hstart := start_wrote cfg r c.store scope
          have hflow' : (start cfg r c.store).2 = .await q := hflow
          rw [hflow'] at hstart
          rw [hstart.1] at hqwrote
          cases hqwrote
        · exact (hinv.wrote k q scope hold hqwrote).step hsteps (hcall k q scope hold hqwrote)
    | resume id p i store flow hp hresume =>
        have hresumes := resumes_of_resume hresume
        rcases Calls.of_process_go hq with ⟨rfl, hflow⟩ | ⟨_, hold⟩
        · have hawaits := hresumes.wrote scope
          rw [hflow] at hawaits
          rcases hawaits hqwrote with hbefore | ⟨value, before, rest, rfl, hvalue, rfl, hflags⟩
          · exact (hinv.wrote k p scope hp hbefore).step hsteps (by rintro _ _ _ ⟨⟩)
          · refine ⟨by rw [Calls.store_go]; exact hflags, ?_⟩
            intro l r hr
            rcases Calls.of_process_go hr with ⟨rfl, hflow'⟩ | ⟨_, hold⟩
            · rw [hflow] at hflow'
              cases hflow'
              exact lifts_of_wrote hqwrote scope
            · exact lifts_of_settled hsettled hp hvalue hold
        · exact (hinv.wrote k q scope hold hqwrote).step hsteps (by rintro _ _ _ ⟨⟩)
  refine ⟨hwrote, ?_⟩
  intro k q scope hq happlied
  have hsteps := h
  cases h with
  | external e store h => cases e
  | call id r hnew hunanswered =>
      rcases Calls.of_process_go hq with ⟨_, hflow⟩ | ⟨_, hold⟩
      · have hstart := start_wrote cfg r c.store scope
        have hflow' : (start cfg r c.store).2 = .await q := hflow
        rw [hflow'] at hstart
        rw [hstart.2] at happlied
        cases happlied
      · exact (hinv.applied k q scope hold happlied).step hsettled hsteps
          (hcall k q scope hold (wrote_of_applied happlied))
  | resume id p i store flow hp hresume =>
      rcases Calls.of_process_go hq with ⟨rfl, hflow⟩ | ⟨_, hold⟩
      · have hawaits := (resumes_of_resume hresume).sets scope
        rw [hflow] at hawaits
        rcases hawaits happlied with hbefore | hstate
        · exact (hinv.applied k p scope hp hbefore).step hsettled hsteps (by rintro _ _ _ ⟨⟩)
        · exact ⟨hwrote k q scope hq (wrote_of_applied happlied), by rw [Calls.store_go]; exact hstate⟩
      · exact (hinv.applied k q scope hold happlied).step hsettled hsteps (by rintro _ _ _ ⟨⟩)

/-! ## One pause -/

/-- The pause `id` is under way. -/
def Pausing (id : CallId) (scopes : List PauseScope) (c : Calls Store Process Answer) : Prop :=
  c.answered id = none ∧ ∃ value before current rest saved,
    c.process id = some (.save value before current rest saved) ∧ value.paused = true ∧
      before ++ current :: rest = scopes

/-- The call has been answered; if it has returned, its scopes are held. -/
def Returned (id : CallId) (scopes : List PauseScope) (c : Calls Store Process Answer) : Prop :=
  c.process id = none ∧ ∃ a, c.answered id = some a ∧
    ∀ x y, a = .status x y → ∀ scope ∈ scopes, Held c scope

theorem Pausing.step {id : CallId} {scopes : List PauseScope} (hp : Pausing id scopes c)
    (hinv : Invariant c) (hsettled : Settled m c) (h : (service cfg).Steps c m c') :
    Pausing id scopes c' ∨ Returned id scopes c' := by
  rcases hp with ⟨hunanswered, value, before, current, rest, saved, hprocess, hvalue, hscopes⟩
  by_cases hid : m.callId = some id
  · have hsteps := h
    cases h with
    | external e store h => cases e
    | call k r hnew _ =>
        cases hid
        rw [hnew] at hprocess
        cases hprocess
    | resume k p i store flow hp hresume =>
        cases hid
        rw [hp] at hprocess
        cases hprocess
        cases resumes_of_resume hresume with
        | saved =>
            exact Or.inl ⟨Calls.answered_go_await hunanswered, value, before, current, rest, true,
              Calls.process_go_self.2 rfl, hvalue, hscopes⟩
        | failed ha =>
            exact Or.inr ⟨Calls.process_go_answer, _, (Calls.answered_go_self hunanswered).2 rfl,
              fun x y hEq => absurd hEq (ha x y)⟩
        | applied =>
            cases rest with
            | cons next rest =>
                exact Or.inl ⟨Calls.answered_go_await hunanswered, value, before ++ [current], next, rest,
                  false, Calls.process_go_self.2 rfl, hvalue, by simpa using hscopes⟩
            | nil =>
                -- all scopes are written, and the last one is set now
                refine Or.inr ⟨Calls.process_go_answer, _, (Calls.answered_go_self hunanswered).2 rfl, ?_⟩
                intro x y _ scope hscope
                rw [← hscopes] at hscope
                rcases List.mem_append.1 hscope with hbefore | hlast
                · have happlied : (Process.save value before current [] true).applied scope = true := by
                    simpa [Process.applied, hvalue] using hbefore
                  exact (hinv.applied id _ scope hp happlied).step hsettled hsteps (by rintro _ _ _ ⟨⟩)
                · obtain rfl : scope = current := List.mem_singleton.1 hlast
                  have hwrote : (Process.save value before scope [] true).wrote scope = true := by
                    simp [Process.wrote, hvalue]
                  refine ⟨(hinv.wrote id _ scope hp hwrote).step hsteps (by rintro _ _ _ ⟨⟩), ?_⟩
                  rw [Calls.store_go, paused_set_self]
                  exact hvalue
  · have hframe := h.frame hid
    exact Or.inl ⟨hframe.2.trans hunanswered, value, before, current, rest, saved,
      hframe.1.trans hprocess, hvalue, hscopes⟩

/-- Until it is answered, a pause is under way. -/
theorem pausing_of_run {id : CallId} {scopes : List PauseScope}
    {between : List (Move Request Reply Empty)} (hinv : Invariant c) (hp : Pausing id scopes c)
    (h : run (guarded Settled (service cfg).step) between c = some c')
    (hunanswered : c'.answered id = none) : Invariant c' ∧ Pausing id scopes c' := by
  have hend : Invariant c' ∧
      (Pausing id scopes c' ∨ (c'.process id = none ∧ ∃ a, c'.answered id = some a)) := by
    refine run_invariant (P := fun d => Invariant d ∧
      (Pausing id scopes d ∨ (d.process id = none ∧ ∃ a, d.answered id = some a)))
      (fun m d d' hd hstep => ?_) ⟨hinv, Or.inl hp⟩ h
    rcases guarded_eq_some.1 hstep with ⟨hsettled, hinner⟩
    have hsteps := Service.steps_of_step hinner
    refine ⟨hd.1.step hsettled hsteps, ?_⟩
    rcases hd.2 with hpausing | ⟨hprocess, a, ha⟩
    · rcases hpausing.step hd.1 hsettled hsteps with hgoes | ⟨hprocess, a, ha, _⟩
      · exact Or.inl hgoes
      · exact Or.inr ⟨hprocess, a, ha⟩
    · have hframe := hsteps.frame (hsteps.finished hprocess ha)
      exact Or.inr ⟨hframe.1.trans hprocess, a, hframe.2.trans ha⟩
  rcases hend.2 with hpausing | ⟨_, a, ha⟩
  · exact ⟨hend.1, hpausing⟩
  · rw [hunanswered] at ha
    cases ha

/-- A held scope stays held until a resume of it is called. -/
theorem held_of_run {after : List (Move Request Reply Empty)} (hh : Held c scope)
    (h : run (guarded Settled (service cfg).step) after c = some c')
    (hcall : ∀ id scopes actor, .call id (.resume scopes actor) ∈ after → scope ∉ scopes) :
    Held c' scope := by
  induction after generalizing c with
  | nil =>
      cases h
      exact hh
  | cons m after ih =>
      rcases run_cons_eq_some.1 h with ⟨d, hd, hrest⟩
      rcases guarded_eq_some.1 hd with ⟨hsettled, hinner⟩
      refine ih (hh.step hsettled (Service.steps_of_step hinner) ?_) hrest ?_
      · rintro id scopes actor rfl
        exact hcall id scopes actor List.mem_cons_self
      · exact fun id scopes actor hmem => hcall id scopes actor (List.mem_cons_of_mem _ hmem)

theorem start_invariant (store : Store) : Invariant (.start store) where
  wrote := by
    intro id p scope hp
    cases hp
  applied := by
    intro id p scope hp
    cases hp

end Invariant

/-- As long as nobody undoes a pause behind its back, a scope is paused from the moment `pause` has
returned until the next `resume` of the scope is called, whatever else runs on the instance. -/
theorem pause_holds (cfg : Config) (flags : Flags) (before between after : List (Move Request Reply Empty))
    (id : CallId) (scopes : List PauseScope) (reason actor : String) (now : Time)
    (m : Move Request Reply Empty) (c₀ c₁ c₂ c₃ c : Calls Store Process Answer) (x y : PauseState)
    (scope : PauseScope)
    (hbefore : run (guarded Settled (service cfg).step) before (.start (.boot flags)) = some c₀)
    (hcall : (service cfg).step (.call id (.pause scopes reason actor now)) c₀ = some c₁)
    (hbetween : run (guarded Settled (service cfg).step) between c₁ = some c₂)
    (hwaiting : c₂.answered id = none)
    (hreturn : guarded Settled (service cfg).step m c₂ = some c₃)
    (hanswer : c₃.answered id = some (.status x y))
    (hafter : run (guarded Settled (service cfg).step) after c₃ = some c)
    (hresume : ∀ k scopes' actor', .call k (.resume scopes' actor') ∈ after → scope ∉ scopes')
    (hscope : scope ∈ scopes) : cfg.isPaused c.store scope = true := by
  have hinv₀ : Invariant c₀ := by
    refine run_invariant (fun m d d' hd hstep => ?_) (start_invariant _) hbefore
    rcases guarded_eq_some.1 hstep with ⟨hsettled, hinner⟩
    exact hd.step hsettled (Service.steps_of_step hinner)
  have hsettled₀ : Settled (.call id (.pause scopes reason actor now)) c₀ := rfl
  have hinv₁ : Invariant c₁ := hinv₀.step hsettled₀ (Service.steps_of_step hcall)
  have hpausing₁ : Pausing id scopes c₁ := by
    cases Service.steps_of_step hcall with
    | call k r hnew hunanswered =>
        cases scopes with
        | nil => cases hscope
        | cons first rest =>
            exact ⟨Calls.answered_go_await hunanswered, _, [], first, rest, false,
              Calls.process_go_self.2 rfl, rfl, rfl⟩
  rcases pausing_of_run hinv₁ hpausing₁ hbetween hwaiting with ⟨hinv₂, hpausing₂⟩
  rcases guarded_eq_some.1 hreturn with ⟨hsettled, hinner⟩
  have hheld₃ : Held c₃ scope := by
    rcases hpausing₂.step hinv₂ hsettled (Service.steps_of_step hinner) with ⟨hnone, _⟩ | ⟨_, a, ha, hheld⟩
    · rw [hanswer] at hnone
      cases hnone
    · rw [hanswer] at ha
      exact hheld x y (Option.some.inj ha).symm scope hscope
  have hheld := held_of_run hheld₃ hafter hresume
  rw [Config.isPaused, hheld.state, Bool.or_true]

def sampleConfig : Config where
  forced := []

def samplePause : Move Request Reply Empty := .call 1 (.pause [.settlement] "incident 42" "ops-1" 0)

/-- Two refreshes that read the row of the pause, and a resume of the other scope. -/
def refreshesAfterwards : List (Move Request Reply Empty) :=
  [.call 2 .refresh, .resume 2 .done, .call 3 (.resume [.streaming] "ops-2"), .resume 3 .done,
    .resume 0 .done, .resume 2 .done, .resume 3 .done]

/-- The refresh 0 is called before the pause and reads its rows while the pause is under way. -/
theorem pause_holds_refreshes :
    ∃ c₀ c₁ c₂ c₃ c x y,
      run (guarded Settled (service sampleConfig).step) [.call 0 .refresh]
        (.start (.boot fun _ => none)) = some c₀ ∧
      (service sampleConfig).step samplePause c₀ = some c₁ ∧
      run (guarded Settled (service sampleConfig).step) [.resume 1 .done, .resume 0 .done] c₁ =
        some c₂ ∧
      guarded Settled (service sampleConfig).step (.resume 1 .done) c₂ = some c₃ ∧
      c₃.answered 1 = some (.status x y) ∧
      run (guarded Settled (service sampleConfig).step) refreshesAfterwards c₃ = some c ∧
      sampleConfig.isPaused c.store .settlement = true := by
  have hreached : ((run (guarded Settled (service sampleConfig).step) [.call 0 .refresh]
      (.start (.boot fun _ => none))).any fun c₀ =>
        ((service sampleConfig).step samplePause c₀).any fun c₁ =>
          (run (guarded Settled (service sampleConfig).step) [.resume 1 .done, .resume 0 .done] c₁).any
            fun c₂ => c₂.answered 1 = none &&
              (guarded Settled (service sampleConfig).step (.resume 1 .done) c₂).any fun c₃ =>
                c₃.answered 1 = some (sampleConfig.answer c₃.store) &&
                  (run (guarded Settled (service sampleConfig).step) refreshesAfterwards c₃).isSome) =
      true := by
    decide +kernel
  rcases (Option.any_eq_true _ _).1 hreached with ⟨c₀, hc₀, hrest₀⟩
  rcases (Option.any_eq_true _ _).1 hrest₀ with ⟨c₁, hc₁, hrest₁⟩
  rcases (Option.any_eq_true _ _).1 hrest₁ with ⟨c₂, hc₂, hrest₂⟩
  rcases Bool.and_eq_true_iff.1 hrest₂ with ⟨hwaiting, hrest₂⟩
  rcases (Option.any_eq_true _ _).1 hrest₂ with ⟨c₃, hc₃, hrest₃⟩
  rcases Bool.and_eq_true_iff.1 hrest₃ with ⟨hanswer, hrest₃⟩
  rcases Option.isSome_iff_exists.1 hrest₃ with ⟨c, hc⟩
  have hstatus := of_decide_eq_true hanswer
  have hother : ∀ k scopes' actor', .call k (.resume scopes' actor') ∈ refreshesAfterwards →
      PauseScope.settlement ∉ scopes' := by
    intro k scopes' actor' hmem
    simp only [refreshesAfterwards, List.mem_cons, List.not_mem_nil, reduceCtorEq, false_or, or_false,
      and_false, Move.call.injEq, Request.resume.injEq] at hmem
    rw [hmem.2.1]
    decide
  refine ⟨c₀, c₁, c₂, c₃, c, _, _, hc₀, hc₁, hc₂, hc₃, hstatus, hc, ?_⟩
  exact pause_holds sampleConfig _ [.call 0 .refresh] _ refreshesAfterwards 1 [.settlement] _ _ 0
    (.resume 1 .done) c₀ c₁ c₂ c₃ c _ _ .settlement hc₀ hc₁ hc₂ (of_decide_eq_true hwaiting) hc₃ hstatus
    hc hother (by decide)

/-- A refresh reads the rows, a pause runs from its call to its return, and then the rows arrive. -/
theorem stale_refresh_lifts_pause :
    ¬ ∀ (cfg : Config) (flags : Flags) (before between after : List (Move Request Reply Empty))
        (id : CallId) (scopes : List PauseScope) (reason actor : String) (now : Time)
        (m : Move Request Reply Empty) (c₀ c₁ c₂ c₃ c : Calls Store Process Answer)
        (x y : PauseState) (scope : PauseScope),
      (∀ k message, .resume k (.failed message) ∉ before ++ between ++ m :: after) →
      run (service cfg).step before (.start (.boot flags)) = some c₀ →
      (service cfg).step (.call id (.pause scopes reason actor now)) c₀ = some c₁ →
      run (service cfg).step between c₁ = some c₂ → c₂.answered id = none →
      (service cfg).step m c₂ = some c₃ → c₃.answered id = some (.status x y) →
      run (service cfg).step after c₃ = some c →
      (∀ k scopes' actor', .call k (.resume scopes' actor') ∈ after → scope ∉ scopes') →
      scope ∈ scopes → cfg.isPaused c.store scope = true := by
  intro hclaim
  have hreached : ((run (service sampleConfig).step [.call 0 .refresh, .resume 0 .done]
      (.start (.boot fun _ => none))).any fun c₀ =>
        ((service sampleConfig).step samplePause c₀).any fun c₁ =>
          (run (service sampleConfig).step [.resume 1 .done] c₁).any fun c₂ =>
            c₂.answered 1 = none && ((service sampleConfig).step (.resume 1 .done) c₂).any fun c₃ =>
              c₃.answered 1 = some (sampleConfig.answer c₃.store) &&
                (run (service sampleConfig).step [.resume 0 .done] c₃).any fun c =>
                  sampleConfig.isPaused c.store .settlement = false) = true := by
    decide +kernel
  rcases (Option.any_eq_true _ _).1 hreached with ⟨c₀, hc₀, hrest₀⟩
  rcases (Option.any_eq_true _ _).1 hrest₀ with ⟨c₁, hc₁, hrest₁⟩
  rcases (Option.any_eq_true _ _).1 hrest₁ with ⟨c₂, hc₂, hrest₂⟩
  rcases Bool.and_eq_true_iff.1 hrest₂ with ⟨hwaiting, hrest₂⟩
  rcases (Option.any_eq_true _ _).1 hrest₂ with ⟨c₃, hc₃, hrest₃⟩
  rcases Bool.and_eq_true_iff.1 hrest₃ with ⟨hanswer, hrest₃⟩
  rcases (Option.any_eq_true _ _).1 hrest₃ with ⟨c, hc, hlifted⟩
  have hpaused := hclaim sampleConfig _ _ _ _ 1 [.settlement] "incident 42" "ops-1" 0 (.resume 1 .done)
    c₀ c₁ c₂ c₃ c _ _ .settlement (by simp) hc₀ hc₁ hc₂ (of_decide_eq_true hwaiting) hc₃
    (of_decide_eq_true hanswer) hc (by simp) (by decide)
  rw [of_decide_eq_true hlifted] at hpaused
  cases hpaused

end Ops
end PaymentRail
