import Mathlib.Algebra.Order.BigOperators.Group.List
import Mathlib.Algebra.Order.Ring.Int
import PaymentRail.Collections.Table
import PaymentRail.Machine.Run

/-!
# Calls — concurrent calls of a service over one store

A service answers calls.  A call runs until it has to wait for something; meanwhile any other call
may take a step, and the store may change from outside.  This file provides:

* `Service` — the pieces of code between two waits, over a store `σ`;
* `Calls` — the store, the calls that are waiting and the answers given so far;
* `Service.step` — one labelled step of all calls together, to be executed by `run`;
* `Service.restrict` — the service whose waits end only under a condition;
* `Outline` — the rule for invariants: an assertion on the store, one on each waiting call that the
  steps of the other calls do not disturb, and a relation between any two waiting calls;
* `Lifecycle` — the same with an assertion on the calls that are still to come and one on the
  answers;
* `Service.Along` — a property of every step of a run, to say what one call does among the others;
* `Service.Refuses` — the rule for calls that are refused: what they have not changed on the way;
* `Calls.total` — a sum over the waiting calls, and how a step moves it.
-/

namespace PaymentRail
namespace Machine

open Collections

/-- A call has one id, from its request to its answer. -/
abbrev CallId := Nat

/-- How a call goes on: it waits as the process `p`, or it answers. -/
inductive Flow (π α : Type) where
  | await (p : π)
  | answer (a : α)

/-- The code of a service, with requests `ρ`, processes `π`, replies `ι`, answers `α` and events
from outside `ε`. -/
structure Service (σ ρ π ι α ε : Type) where
  /-- A call up to its first wait. -/
  start : ρ → σ → σ × Flow π α
  /-- A call from one wait to the next; `none` if it cannot be given this reply. -/
  resume : CallId → π → ι → σ → Option (σ × Flow π α)
  external : ε → σ → Option σ

structure Calls (σ π α : Type) where
  store : σ
  processes : List (CallId × π)
  answers : List (CallId × α)

inductive Move (ρ ι ε : Type) where
  | call (id : CallId) (request : ρ)
  | resume (id : CallId) (reply : ι)
  | external (event : ε)
  deriving DecidableEq, Repr

section Steps

variable {σ ρ π ι α ε : Type}

namespace Calls

/-- No call has been made yet. -/
def start (store : σ) : Calls σ π α := { store, processes := [], answers := [] }

/-- The process a call is waiting as. -/
def process (c : Calls σ π α) (id : CallId) : Option π :=
  (Table.lookup Prod.fst c.processes id).map Prod.snd

/-- The answer a call has given. -/
def answered (c : Calls σ π α) (id : CallId) : Option α :=
  (Table.lookup Prod.fst c.answers id).map Prod.snd

/-- The call `id` has left the store `store` behind and goes on with `flow`. -/
def go (c : Calls σ π α) (id : CallId) (store : σ) : Flow π α → Calls σ π α
  | .await p => { c with store, processes := Table.put Prod.fst c.processes (id, p) }
  | .answer a =>
      { store, processes := Table.drop Prod.fst c.processes id
        answers := Table.put Prod.fst c.answers (id, a) }

end Calls

namespace Service

def step (S : Service σ ρ π ι α ε) : Move ρ ι ε → Calls σ π α → Option (Calls σ π α)
  | .call id r, c =>
      if c.process id = none ∧ c.answered id = none then
        some (c.go id (S.start r c.store).1 (S.start r c.store).2)
      else
        none
  | .resume id i, c =>
      match c.process id with
      | none => none
      | some p =>
          match S.resume id p i c.store with
          | none => none
          | some (store, flow) => some (c.go id store flow)
  | .external e, c => (S.external e c.store).map fun store => { c with store }

/-- The service whose waits end only when `G` holds of the process, the reply and the store. -/
def restrict (S : Service σ ρ π ι α ε) (G : π → ι → σ → Prop) [∀ p i s, Decidable (G p i s)] :
    Service σ ρ π ι α ε :=
  { S with resume := fun id p i s => if G p i s then S.resume id p i s else none }

end Service

end Steps

/-! ## What a step does -/

section Lemmas

variable {σ ρ π ι α ε : Type} {S : Service σ ρ π ι α ε} {c c' : Calls σ π α} {id k : CallId}
  {store : σ} {flow : Flow π α}

namespace Calls

@[simp] theorem store_go : (c.go id store flow).store = store := by
  cases flow with
  | await p => rfl
  | answer a => rfl

theorem process_go_self {p : π} : (c.go id store flow).process id = some p ↔ flow = .await p := by
  cases flow with
  | await q =>
      have hself : Table.lookup Prod.fst (Table.put Prod.fst c.processes (id, q)) id = some (id, q) :=
        Table.lookup_put_self c.processes (id, q)
      simp [process, go, hself]
  | answer a =>
      simp [process, go]

theorem process_go_of_ne (h : id ≠ k) : (c.go id store flow).process k = c.process k := by
  cases flow with
  | await q =>
      rw [process, process, go, Table.lookup_put_of_ne c.processes (id, q) h]
  | answer a =>
      rw [process, process, go, Table.lookup_drop_of_ne h]

/-- A waiting call is the one that has moved, or one that waited before. -/
theorem of_process_go {p : π} (h : (c.go id store flow).process k = some p) :
    (k = id ∧ flow = .await p) ∨ (k ≠ id ∧ c.process k = some p) := by
  by_cases hk : id = k
  · subst hk
    exact Or.inl ⟨rfl, process_go_self.1 h⟩
  · rw [process_go_of_ne hk] at h
    exact Or.inr ⟨Ne.symm hk, h⟩

theorem answered_go_self {a : α} (h : c.answered id = none) :
    (c.go id store flow).answered id = some a ↔ flow = .answer a := by
  cases flow with
  | await q =>
      simp only [answered, go] at h ⊢
      simp [h]
  | answer b =>
      have hself : Table.lookup Prod.fst (Table.put Prod.fst c.answers (id, b)) id = some (id, b) :=
        Table.lookup_put_self c.answers (id, b)
      simp [answered, go, hself]

/-- A call that goes on waiting has not answered. -/
theorem answered_go_await {p : π} (h : c.answered id = none) :
    (c.go id store (.await p)).answered id = none := by
  rw [Option.eq_none_iff_forall_ne_some]
  intro a ha
  cases (answered_go_self h).1 ha

/-- A call that answers does not wait any more. -/
theorem process_go_answer {a : α} : (c.go id store (.answer a)).process id = none := by
  rw [Option.eq_none_iff_forall_ne_some]
  intro p hp
  cases process_go_self.1 hp

theorem answered_go_of_ne (h : id ≠ k) : (c.go id store flow).answered k = c.answered k := by
  cases flow with
  | await q => rfl
  | answer a =>
      rw [answered, answered, go, Table.lookup_put_of_ne c.answers (id, a) h]

/-- An answered call is the one that has just answered, or one that had answered before. -/
theorem of_answered_go {a : α} (h : (c.go id store flow).answered k = some a) :
    (k = id ∧ flow = .answer a) ∨ c.answered k = some a := by
  by_cases hk : id = k
  · subst hk
    cases flow with
    | await p => exact Or.inr h
    | answer b =>
        have hself : Table.lookup Prod.fst (Table.put Prod.fst c.answers (id, b)) id = some (id, b) :=
          Table.lookup_put_self c.answers (id, b)
        have hsome : some b = some a := by simpa [answered, go, hself] using h
        cases hsome
        exact Or.inl ⟨rfl, rfl⟩
  · rw [answered_go_of_ne hk] at h
    exact Or.inr h

theorem answers_go {a : α} (h : c.answered id = none) :
    (c.go id store (.answer a)).answers = (id, a) :: c.answers := by
  rw [go, Table.put, Table.drop_eq_self (Option.map_eq_none_iff.1 h)]

/-- The ids of the waiting calls are distinct. -/
def Keyed (c : Calls σ π α) : Prop := Table.Keyed Prod.fst c.processes

theorem Keyed.go (h : c.Keyed) : (c.go id store flow).Keyed := by
  cases flow with
  | await p => exact Table.Keyed.put h
  | answer a => exact Table.Keyed.drop h

end Calls

/-- The three kinds of steps. -/
inductive Service.Steps (S : Service σ ρ π ι α ε) (c : Calls σ π α) :
    Move ρ ι ε → Calls σ π α → Prop
  | call (id : CallId) (r : ρ) (hnew : c.process id = none) (hunanswered : c.answered id = none) :
      Steps S c (.call id r) (c.go id (S.start r c.store).1 (S.start r c.store).2)
  | resume (id : CallId) (p : π) (i : ι) (store : σ) (flow : Flow π α)
      (hp : c.process id = some p) (h : S.resume id p i c.store = some (store, flow)) :
      Steps S c (.resume id i) (c.go id store flow)
  | external (e : ε) (store : σ) (h : S.external e c.store = some store) :
      Steps S c (.external e) { c with store }

theorem Service.steps_of_step {m : Move ρ ι ε} (h : S.step m c = some c') : S.Steps c m c' := by
  cases m with
  | call id r =>
      simp only [Service.step] at h
      split at h
      · rename_i hnew
        cases h
        exact .call id r hnew.1 hnew.2
      · cases h
  | resume id i =>
      simp only [Service.step] at h
      split at h
      · cases h
      · rename_i p hp
        split at h
        · cases h
        · rename_i store flow hresume
          cases h
          exact .resume id p i store flow hp hresume
  | external e =>
      simp only [Service.step, Option.map_eq_some_iff] at h
      rcases h with ⟨store, hstore, rfl⟩
      exact .external e store hstore

theorem Service.Steps.keyed {m : Move ρ ι ε} (h : S.Steps c m c') (hc : c.Keyed) : c'.Keyed := by
  cases h with
  | call id r hnew hunanswered => exact hc.go
  | resume id p i store flow hp h => exact hc.go
  | external e store h => exact hc

@[simp] theorem Service.restrict_start {G : π → ι → σ → Prop} [∀ p i s, Decidable (G p i s)] :
    (S.restrict G).start = S.start := rfl

@[simp] theorem Service.restrict_external {G : π → ι → σ → Prop} [∀ p i s, Decidable (G p i s)] :
    (S.restrict G).external = S.external := rfl

@[simp] theorem Service.restrict_resume {G : π → ι → σ → Prop} [∀ p i s, Decidable (G p i s)]
    {p : π} {i : ι} {s : σ} {next : σ × Flow π α} :
    (S.restrict G).resume id p i s = some next ↔ G p i s ∧ S.resume id p i s = some next := by
  by_cases h : G p i s
  · simp [Service.restrict, h]
  · simp [Service.restrict, h]

/-- A condition that always holds restricts nothing. -/
theorem Service.restrict_true (S : Service σ ρ π ι α ε) : S.restrict (fun _ _ _ => True) = S := by
  simp [Service.restrict]

end Lemmas

/-! ## Proof outlines -/

section Outlines

variable {σ ρ π ι α ε : Type}

/-- `A` holds of the process a flow waits as. -/
def Flow.Awaits (A : π → Prop) : Flow π α → Prop
  | .await p => A p
  | .answer _ => True

theorem Flow.awaits_of_forall {A : π → Prop} (h : ∀ p, A p) (flow : Flow π α) : flow.Awaits A := by
  cases flow with
  | await p => exact h p
  | answer a => trivial

theorem Flow.Awaits.imp {A B : π → Prop} {flow : Flow π α} (h : flow.Awaits A)
    (himp : ∀ p, A p → B p) : flow.Awaits B := by
  cases flow with
  | await p => exact himp p h
  | answer a => trivial

/-- An assertion `I` on the store, an assertion `A` on every waiting call, and a relation `D` between
any two of them: each call establishes its own, and no step disturbs those of the others. -/
structure Outline (S : Service σ ρ π ι α ε) (I : σ → Prop) (A : σ → CallId → π → Prop)
    (D : π → π → Prop) : Prop where
  symm : ∀ p q, D p q → D q p
  start : ∀ id r s, I s →
    I (S.start r s).1 ∧ (S.start r s).2.Awaits (A (S.start r s).1 id) ∧
      ∀ k q, A s k q → A (S.start r s).1 k q ∧ (S.start r s).2.Awaits (D q)
  resume : ∀ id p i s s' flow, I s → A s id p → S.resume id p i s = some (s', flow) →
    I s' ∧ flow.Awaits (A s' id) ∧
      ∀ k q, k ≠ id → A s k q → D q p → A s' k q ∧ flow.Awaits (D q)
  external : ∀ e s s', I s → S.external e s = some s' → I s' ∧ ∀ k q, A s k q → A s' k q

/-- The assertions of an outline hold. -/
structure Calls.Annotated (I : σ → Prop) (A : σ → CallId → π → Prop) (D : π → π → Prop)
    (c : Calls σ π α) : Prop where
  store : I c.store
  process : ∀ id p, c.process id = some p → A c.store id p
  apart : ∀ id k p q, id ≠ k → c.process id = some p → c.process k = some q → D p q

section Rule

variable {S : Service σ ρ π ι α ε} {I : σ → Prop} {A : σ → CallId → π → Prop} {D : π → π → Prop}
  {c : Calls σ π α}

theorem Calls.Annotated.start {s : σ} (h : I s) :
    Annotated I A D (Calls.start s : Calls σ π α) := by
  refine ⟨h, ?_, ?_⟩
  · intro id p hp
    cases hp
  · intro id k p q hne hp hq
    cases hp

theorem Calls.Annotated.go {id : CallId} {s : σ} {flow : Flow π α} (hc : c.Annotated I A D)
    (hsymm : ∀ p q, D p q → D q p) (hI : I s) (hself : flow.Awaits (A s id))
    (hothers : ∀ k q, k ≠ id → c.process k = some q → A s k q ∧ flow.Awaits (D q)) :
    (c.go id s flow).Annotated I A D := by
  -- the call that moved is related to every other one
  have hmoved : ∀ k p q, k ≠ id → flow = .await p → c.process k = some q → D q p := by
    intro k p q hk hflow hq
    have hD := (hothers k q hk hq).2
    rw [hflow] at hD
    exact hD
  refine ⟨by simpa using hI, ?_, ?_⟩
  · intro k q hq
    rw [Calls.store_go]
    by_cases hk : id = k
    · subst hk
      have hflow := Calls.process_go_self.1 hq
      rw [hflow] at hself
      exact hself
    · rw [Calls.process_go_of_ne hk] at hq
      exact (hothers k q (Ne.symm hk) hq).1
  · intro k l p q hne hp hq
    by_cases hk : id = k
    · subst hk
      rw [Calls.process_go_of_ne hne] at hq
      exact hsymm q p (hmoved l p q (Ne.symm hne) (Calls.process_go_self.1 hp) hq)
    · rw [Calls.process_go_of_ne hk] at hp
      by_cases hl : id = l
      · subst hl
        exact hmoved k q p (Ne.symm hk) (Calls.process_go_self.1 hq) hp
      · rw [Calls.process_go_of_ne hl] at hq
        exact hc.apart k l p q hne hp hq

theorem Outline.step (hS : Outline S I A D) (m : Move ρ ι ε) (c c' : Calls σ π α)
    (hc : c.Annotated I A D) (h : S.step m c = some c') : c'.Annotated I A D := by
  cases Service.steps_of_step h with
  | call id r hnew hunanswered =>
      rcases hS.start id r c.store hc.store with ⟨hI, hself, hothers⟩
      exact hc.go hS.symm hI hself (fun k q _ hq => hothers k q (hc.process k q hq))
  | resume id p i store flow hp hresume =>
      rcases hS.resume id p i c.store store flow hc.store (hc.process id p hp) hresume with
        ⟨hI, hself, hothers⟩
      exact hc.go hS.symm hI hself
        (fun k q hk hq => hothers k q hk (hc.process k q hq) (hc.apart k id q p hk hq hp))
  | external e store hexternal =>
      rcases hS.external e c.store store hc.store hexternal with ⟨hI, hothers⟩
      exact ⟨hI, fun id p hp => hothers id p (hc.process id p hp), hc.apart⟩

/-- The assertions hold after every run. -/
theorem Outline.run (hS : Outline S I A D) {moves : List (Move ρ ι ε)} {c c' : Calls σ π α}
    (hc : c.Annotated I A D) (h : Machine.run S.step moves c = some c') : c'.Annotated I A D :=
  run_invariant hS.step hc h

end Rule

end Outlines

/-! ## Assertions over the life of a call -/

section Lifecycles

variable {σ ρ π ι α ε : Type}

/-- `B` holds of the answer a flow gives. -/
def Flow.Answers (B : α → Prop) : Flow π α → Prop
  | .await _ => True
  | .answer a => B a

/-- The call `id` has gone on with `flow` and taken the store from `s` to `s'`: its own assertion
holds, and the others keep theirs, those that are related to it by `E`. -/
structure Goes (I : σ → Prop) (A : σ → CallId → π → Prop) (D : π → π → Prop)
    (F : σ → CallId → Prop) (B : σ → CallId → α → Prop) (E : π → Prop) (id : CallId) (s s' : σ)
    (flow : Flow π α) : Prop where
  store : I s'
  self : flow.Awaits (A s' id)
  answer : flow.Answers (B s' id)
  others : ∀ k q, k ≠ id → A s k q → E q → A s' k q ∧ flow.Awaits (D q)
  fresh : ∀ k, k ≠ id → F s k → F s' k
  answered : ∀ k a, k ≠ id → B s k a → B s' k a

/-- As an `Outline`, with an assertion `F` on every call that has not been made yet and an assertion
`B` on every call that has been answered. -/
structure Lifecycle (S : Service σ ρ π ι α ε) (I : σ → Prop) (A : σ → CallId → π → Prop)
    (D : π → π → Prop) (F : σ → CallId → Prop) (B : σ → CallId → α → Prop) : Prop where
  symm : ∀ p q, D p q → D q p
  start : ∀ id r s, I s → F s id →
    Goes I A D F B (fun _ => True) id s (S.start r s).1 (S.start r s).2
  resume : ∀ id p i s s' flow, I s → A s id p → S.resume id p i s = some (s', flow) →
    Goes I A D F B (fun q => D q p) id s s' flow
  external : ∀ e s s', I s → S.external e s = some s' →
    I s' ∧ (∀ k q, A s k q → A s' k q) ∧ (∀ k, F s k → F s' k) ∧ ∀ k a, B s k a → B s' k a

/-- The assertions of a lifecycle hold. -/
structure Calls.Follows (I : σ → Prop) (A : σ → CallId → π → Prop) (D : π → π → Prop)
    (F : σ → CallId → Prop) (B : σ → CallId → α → Prop) (c : Calls σ π α) : Prop where
  annotated : c.Annotated I A D
  waiting : ∀ id p, c.process id = some p → c.answered id = none
  fresh : ∀ id, c.process id = none → c.answered id = none → F c.store id
  answered : ∀ id a, c.answered id = some a → B c.store id a

section Rule

variable {S : Service σ ρ π ι α ε} {I : σ → Prop} {A : σ → CallId → π → Prop} {D : π → π → Prop}
  {F : σ → CallId → Prop} {B : σ → CallId → α → Prop} {c : Calls σ π α}

theorem Calls.Follows.start {s : σ} (hI : I s) (hF : ∀ id, F s id) :
    Follows I A D F B (Calls.start s : Calls σ π α) := by
  refine ⟨.start hI, fun _ _ _ => rfl, fun id _ _ => hF id, ?_⟩
  intro id a ha
  cases ha

theorem Calls.Follows.go {E : π → Prop} {id : CallId} {s : σ} {flow : Flow π α}
    (hc : c.Follows I A D F B) (hsymm : ∀ p q, D p q → D q p)
    (h : Goes I A D F B E id c.store s flow)
    (hE : ∀ k q, k ≠ id → c.process k = some q → E q)
    (hunanswered : c.answered id = none) : (c.go id s flow).Follows I A D F B := by
  refine ⟨?_, ?_, ?_, ?_⟩
  · refine hc.annotated.go hsymm h.store h.self ?_
    intro k q hk hq
    exact h.others k q hk (hc.annotated.process k q hq) (hE k q hk hq)
  · intro k q hq
    by_cases hk : id = k
    · subst hk
      rw [Calls.process_go_self.1 hq]
      exact hunanswered
    · rw [Calls.process_go_of_ne hk] at hq
      rw [Calls.answered_go_of_ne hk]
      exact hc.waiting k q hq
  · intro k hprocess hanswered
    rw [Calls.store_go]
    by_cases hk : id = k
    · -- the call has gone on, so it waits or it has answered
      subst hk
      cases flow with
      | await p =>
          rw [Calls.process_go_self.2 rfl] at hprocess
          cases hprocess
      | answer a =>
          rw [(Calls.answered_go_self hunanswered).2 rfl] at hanswered
          cases hanswered
    · rw [Calls.process_go_of_ne hk] at hprocess
      rw [Calls.answered_go_of_ne hk] at hanswered
      exact h.fresh k (Ne.symm hk) (hc.fresh k hprocess hanswered)
  · intro k a hanswered
    rw [Calls.store_go]
    by_cases hk : id = k
    · subst hk
      have hflow := (Calls.answered_go_self hunanswered).1 hanswered
      have hanswer := h.answer
      rw [hflow] at hanswer
      exact hanswer
    · rw [Calls.answered_go_of_ne hk] at hanswered
      exact h.answered k a (Ne.symm hk) (hc.answered k a hanswered)

theorem Lifecycle.step (hS : Lifecycle S I A D F B) (m : Move ρ ι ε) (c c' : Calls σ π α)
    (hc : c.Follows I A D F B) (h : S.step m c = some c') : c'.Follows I A D F B := by
  cases Service.steps_of_step h with
  | call id r hnew hunanswered =>
      exact hc.go hS.symm
        (hS.start id r c.store hc.annotated.store (hc.fresh id hnew hunanswered))
        (fun _ _ _ _ => trivial) hunanswered
  | resume id p i store flow hp hresume =>
      exact hc.go hS.symm
        (hS.resume id p i c.store store flow hc.annotated.store (hc.annotated.process id p hp) hresume)
        (fun k q hk hq => hc.annotated.apart k id q p hk hq hp) (hc.waiting id p hp)
  | external e store hexternal =>
      rcases hS.external e c.store store hc.annotated.store hexternal with ⟨hI, hA, hF, hB⟩
      refine ⟨⟨hI, ?_, hc.annotated.apart⟩, hc.waiting, ?_, ?_⟩
      · exact fun id p hp => hA id p (hc.annotated.process id p hp)
      · exact fun id hprocess hanswered => hF id (hc.fresh id hprocess hanswered)
      · exact fun id a ha => hB id a (hc.answered id a ha)

/-- The assertions hold after every run. -/
theorem Lifecycle.run (hS : Lifecycle S I A D F B) {moves : List (Move ρ ι ε)}
    {c c' : Calls σ π α} (hc : c.Follows I A D F B) (h : Machine.run S.step moves c = some c') :
    c'.Follows I A D F B :=
  run_invariant hS.step hc h

end Rule

end Lifecycles

/-! ## One call among the others -/

section OneCall

variable {σ ρ π ι α ε : Type} {S : Service σ ρ π ι α ε} {c c' : Calls σ π α} {id : CallId}
  {m : Move ρ ι ε}

/-- The call that moves; an event from outside belongs to none. -/
def Move.callId : Move ρ ι ε → Option CallId
  | .call id _ => some id
  | .resume id _ => some id
  | .external _ => none

/-- `P` holds of every step of the run. -/
def Service.Along (S : Service σ ρ π ι α ε) (P : Move ρ ι ε → Calls σ π α → Calls σ π α → Prop) :
    List (Move ρ ι ε) → Calls σ π α → Prop
  | [], _ => True
  | m :: ms, c => ∀ c', S.step m c = some c' → P m c c' ∧ Along S P ms c'

instance Service.decidableAlong (P : Move ρ ι ε → Calls σ π α → Calls σ π α → Prop)
    [∀ m c c', Decidable (P m c c')] :
    (moves : List (Move ρ ι ε)) → (c : Calls σ π α) → Decidable (S.Along P moves c)
  | [], _ => .isTrue trivial
  | m :: moves, c =>
      match h : S.step m c with
      | none => .isTrue fun c' hstep => absurd (h.symm.trans hstep) (Option.some_ne_none c').symm
      | some c' =>
          have := Service.decidableAlong P moves c'
          decidable_of_iff (P m c c' ∧ S.Along P moves c')
            ⟨fun hboth _ hstep => Option.some.inj (h.symm.trans hstep) ▸ hboth, fun hall => hall c' h⟩

theorem Service.along_eq (P : Move ρ ι ε → Calls σ π α → Calls σ π α → Prop)
    (moves : List (Move ρ ι ε)) (c : Calls σ π α) :
    S.Along P moves c ↔ Machine.Along S.step P moves c := by
  induction moves generalizing c with
  | nil => exact Iff.rfl
  | cons m moves ih =>
      exact forall_congr' fun c' => imp_congr_right fun _ => and_congr_right fun _ => ih c'

theorem Service.along_iff {I : Calls σ π α → Prop}
    {P G : Move ρ ι ε → Calls σ π α → Calls σ π α → Prop}
    (hkeep : ∀ m c c', I c → S.step m c = some c' → G m c c' → I c' ∧ P m c c')
    (hneed : ∀ m c c', I c → S.step m c = some c' → P m c c' → G m c c')
    {moves : List (Move ρ ι ε)} (hc : I c) : S.Along P moves c ↔ S.Along G moves c := by
  rw [Service.along_eq, Service.along_eq]
  exact Machine.along_iff hkeep hneed hc

/-- The others do not move a call. -/
theorem Service.Steps.frame (h : S.Steps c m c') (hid : m.callId ≠ some id) :
    c'.process id = c.process id ∧ c'.answered id = c.answered id := by
  cases h with
  | call k r hnew hunanswered =>
      have hk : k ≠ id := fun hEq => hid (congrArg some hEq)
      exact ⟨Calls.process_go_of_ne hk, Calls.answered_go_of_ne hk⟩
  | resume k p i store flow hp h =>
      have hk : k ≠ id := fun hEq => hid (congrArg some hEq)
      exact ⟨Calls.process_go_of_ne hk, Calls.answered_go_of_ne hk⟩
  | external e store h => exact ⟨rfl, rfl⟩

/-- A call that has answered does not move any more. -/
theorem Service.Steps.finished {a : α} (h : S.Steps c m c') (hprocess : c.process id = none)
    (hanswered : c.answered id = some a) : m.callId ≠ some id := by
  cases h with
  | call k r hnew hunanswered =>
      intro hid
      cases hid
      rw [hunanswered] at hanswered
      cases hanswered
  | resume k p i store flow hp h =>
      intro hid
      cases hid
      rw [hprocess] at hp
      cases hp
  | external e store h =>
      intro hid
      cases hid

theorem Service.along_finished {a : α} {P : Move ρ ι ε → Calls σ π α → Calls σ π α → Prop}
    {moves : List (Move ρ ι ε)} (hprocess : c.process id = none) (hanswered : c.answered id = some a) :
    S.Along (fun m c c' => m.callId = some id → P m c c') moves c := by
  induction moves generalizing c with
  | nil => trivial
  | cons m moves ih =>
      intro c' hstep
      have hsteps := Service.steps_of_step hstep
      have hid := hsteps.finished hprocess hanswered
      have hframe := hsteps.frame hid
      refine ⟨fun hEq => absurd hEq hid, ih ?_ ?_⟩
      · rw [hframe.1, hprocess]
      · rw [hframe.2, hanswered]

/-- A call that goes on as `W` changes the store by `R` at most, until it has gone too far (`V`) to
give an answer of the kind `B`. -/
structure Service.Refuses (S : Service σ ρ π ι α ε) (W V : π → Prop) (R : σ → σ → Prop)
    (B : α → Prop) : Prop where
  waits : ∀ id p i s s' flow, W p → S.resume id p i s = some (s', flow) →
    (R s s' ∧ flow.Awaits W) ∨ (flow.Awaits V ∧ flow.Answers fun a => ¬ B a)
  committed : ∀ id p i s s' flow, V p → S.resume id p i s = some (s', flow) →
    flow.Awaits V ∧ flow.Answers fun a => ¬ B a

section Refuses

variable {W V : π → Prop} {R : σ → σ → Prop} {B : α → Prop}

/-- The call waits as `P`. -/
def Calls.WaitsAs (P : π → Prop) (id : CallId) (c : Calls σ π α) : Prop :=
  c.answered id = none ∧ ∃ p, c.process id = some p ∧ P p

/-- The call has given an answer of the kind `P`. -/
def Calls.AnsweredAs (P : α → Prop) (id : CallId) (c : Calls σ π α) : Prop :=
  c.process id = none ∧ ∃ a, c.answered id = some a ∧ P a

theorem Calls.waitsAs_go {P : π → Prop} {store : σ} {q : π} (h : c.answered id = none) (hq : P q) :
    Calls.WaitsAs P id (c.go id store (.await q)) :=
  ⟨Calls.answered_go_await h, q, Calls.process_go_self.2 rfl, hq⟩

theorem Calls.answeredAs_go {P : α → Prop} {store : σ} {a : α} (h : c.answered id = none)
    (ha : P a) : Calls.AnsweredAs P id (c.go id store (.answer a)) :=
  ⟨Calls.process_go_answer, a, (Calls.answered_go_self h).2 rfl, ha⟩

/-- A call that has gone too far never answers so. -/
theorem Service.Refuses.never (hS : Service.Refuses S W V R B) {moves : List (Move ρ ι ε)}
    (hc : c.WaitsAs V id ∨ c.AnsweredAs (fun a => ¬ B a) id)
    (hrun : run S.step moves c = some c') {a : α} (ha : c'.answered id = some a) : ¬ B a := by
  have hend : c'.WaitsAs V id ∨ c'.AnsweredAs (fun a => ¬ B a) id := by
    refine run_invariant (P := fun d => d.WaitsAs V id ∨ d.AnsweredAs (fun a => ¬ B a) id) ?_ hc hrun
    intro m d d' hd hstep
    have hsteps := Service.steps_of_step hstep
    by_cases hid : m.callId = some id
    · rcases hd with ⟨hanswered, p, hp, hV⟩ | ⟨hprocess, b, hb, _⟩
      · cases hsteps with
        | call k r hnew hunanswered =>
            cases hid
            rw [hnew] at hp
            cases hp
        | external e store h => cases hid
        | resume k q i store flow hq hresume =>
            cases hid
            rw [hp] at hq
            cases hq
            rcases hS.committed id p i d.store store flow hV hresume with ⟨hawaits, hanswers⟩
            cases flow with
            | await q => exact Or.inl (Calls.waitsAs_go hanswered hawaits)
            | answer b => exact Or.inr (Calls.answeredAs_go hanswered hanswers)
      · exact absurd hid (hsteps.finished hprocess hb)
    · have hframe := hsteps.frame hid
      rw [Calls.WaitsAs, Calls.AnsweredAs, hframe.1, hframe.2]
      exact hd
  rcases hend with ⟨hnone, _⟩ | ⟨_, b, hb, hwell⟩
  · rw [hnone] at ha
    cases ha
  · rw [hb] at ha
    cases ha
    exact hwell

/-- A call that ends with an answer of the kind `B` has changed the store by `R` at most, whatever
the others did meanwhile. -/
theorem Service.Refuses.along (hS : Service.Refuses S W V R B) {moves : List (Move ρ ι ε)}
    (hc : c.WaitsAs W id) (hrun : run S.step moves c = some c') {a : α}
    (ha : c'.answered id = some a) (hB : B a) :
    S.Along (fun m d d' => m.callId = some id → R d.store d'.store) moves c := by
  induction moves generalizing c with
  | nil => trivial
  | cons m moves ih =>
      intro d hd
      rcases run_cons_eq_some.1 hrun with ⟨d', hd', hrest⟩
      rw [hd] at hd'
      cases hd'
      have hsteps := Service.steps_of_step hd
      rcases hc with ⟨hanswered, p, hp, hW⟩
      by_cases hid : m.callId = some id
      · cases hsteps with
        | call k r hnew hunanswered =>
            cases hid
            rw [hnew] at hp
            cases hp
        | external e store h => cases hid
        | resume k q i store flow hq hresume =>
            cases hid
            rw [hp] at hq
            cases hq
            rcases hS.waits id p i c.store store flow hW hresume with ⟨hR, hawaits⟩ |
              ⟨hawaits, hanswers⟩
            · refine ⟨fun _ => by rw [Calls.store_go]; exact hR, ?_⟩
              cases flow with
              | await q => exact ih (Calls.waitsAs_go hanswered hawaits) hrest
              | answer b =>
                  have hgone : (c.go id store (.answer b)).AnsweredAs (fun _ => True) id :=
                    Calls.answeredAs_go hanswered trivial
                  rcases hgone with ⟨hprocess, b', hb', _⟩
                  exact Service.along_finished hprocess hb'
            · -- having gone too far, the call could not have answered so
              have hnever : (c.go id store flow).WaitsAs V id ∨
                  (c.go id store flow).AnsweredAs (fun a => ¬ B a) id := by
                cases flow with
                | await q => exact Or.inl (Calls.waitsAs_go hanswered hawaits)
                | answer b => exact Or.inr (Calls.answeredAs_go hanswered hanswers)
              exact absurd hB (hS.never hnever hrest ha)
      · have hframe := hsteps.frame hid
        refine ⟨fun hEq => absurd hEq hid, ih ⟨?_, p, ?_, hW⟩ hrest⟩
        · rw [hframe.2, hanswered]
        · rw [hframe.1, hp]

/-- The same from the request on. -/
theorem Service.Refuses.along_call (hS : Service.Refuses S W V R B) {r : ρ}
    (hR : R c.store (S.start r c.store).1) (hW : (S.start r c.store).2.Awaits W)
    {later : List (Move ρ ι ε)} (hrun : run S.step (.call id r :: later) c = some c') {a : α}
    (ha : c'.answered id = some a) (hB : B a) :
    S.Along (fun m d d' => m.callId = some id → R d.store d'.store) (.call id r :: later) c := by
  intro d hd
  rcases run_cons_eq_some.1 hrun with ⟨d', hd', hrest⟩
  rw [hd] at hd'
  cases hd'
  cases Service.steps_of_step hd with
  | call k r hnew hunanswered =>
      refine ⟨fun _ => by rw [Calls.store_go]; exact hR, ?_⟩
      cases hflow : (S.start r c.store).2 with
      | await p =>
          rw [hflow] at hW hrest
          exact hS.along (Calls.waitsAs_go hunanswered hW) hrest ha hB
      | answer b =>
          have hgone : (c.go id (S.start r c.store).1 (.answer b)).AnsweredAs (fun _ => True) id :=
            Calls.answeredAs_go hunanswered trivial
          rcases hgone with ⟨hprocess, b', hb', _⟩
          exact Service.along_finished hprocess hb'

end Refuses

end OneCall

/-! ## Sums over the waiting calls -/

section Totals

variable {σ π α : Type} {M : Type} [AddCommMonoid M] (f : π → M)

/-- The sum of `f` over the waiting calls. -/
def Calls.total (c : Calls σ π α) : M := (c.processes.map fun entry => f entry.2).sum

/-- What a call that goes on so adds to the sum. -/
def Flow.weight : Flow π α → M
  | .await p => f p
  | .answer _ => 0

theorem Calls.total_go {c : Calls σ π α} (hc : c.Keyed) (id : CallId) (store : σ)
    (flow : Flow π α) :
    (c.go id store flow).total f + (c.process id).elim 0 f = c.total f + flow.weight f := by
  have hold : (c.process id).elim 0 f =
      (Table.lookup Prod.fst c.processes id).elim 0 fun entry => f entry.2 := by
    rw [Calls.process, Option.elim_map]
    rfl
  rw [hold]
  cases flow with
  | await p =>
      exact Table.sum_put_add (fun entry : CallId × π => f entry.2) hc (id, p)
  | answer a =>
      rw [Flow.weight, add_zero]
      exact Table.sum_drop_add (fun entry : CallId × π => f entry.2) hc id

end Totals

section IntTotals

variable {σ π α : Type} {c : Calls σ π α}

theorem Calls.process_of_mem (hc : c.Keyed) {entry : CallId × π} (h : entry ∈ c.processes) :
    c.process entry.1 = some entry.2 := by
  rw [Calls.process, Table.lookup_of_mem hc h]
  rfl

theorem Calls.mem_of_process {id : CallId} {p : π} (h : c.process id = some p) :
    (id, p) ∈ c.processes := by
  rcases Option.map_eq_some_iff.1 h with ⟨entry, hentry, rfl⟩
  have hid : entry.1 = id := Table.key_of_lookup hentry
  rw [← hid]
  exact Table.mem_of_lookup hentry

/-- One of several non-negative terms is at most their sum. -/
theorem Calls.le_total (hc : c.Keyed) {f : π → Int}
    (hf : ∀ id p, c.process id = some p → 0 ≤ f p) {id : CallId} {p : π}
    (hp : c.process id = some p) : f p ≤ c.total f := by
  rcases Option.map_eq_some_iff.1 hp with ⟨entry, hentry, rfl⟩
  refine List.single_le_sum ?_ _ (List.mem_map.2 ⟨entry, Table.mem_of_lookup hentry, rfl⟩)
  intro x hx
  rcases List.mem_map.1 hx with ⟨other, hother, rfl⟩
  exact hf other.1 other.2 (Calls.process_of_mem hc hother)

theorem Calls.total_add (f g : π → Int) :
    (c.total fun p => f p + g p) = c.total f + c.total g := by
  simp [Calls.total, List.sum_map_add]

end IntTotals

end Machine
end PaymentRail
