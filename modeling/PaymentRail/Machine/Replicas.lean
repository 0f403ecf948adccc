import Mathlib.Logic.Function.Basic
import PaymentRail.Machine.Calls

/-!
# Replicas — instances of a service over what they share

Every instance runs the same code over a store of its own, of which a part is shared with all the
others.  This file provides:

* `Split` — the shared part of a store and the part an instance keeps to itself;
* `Replicas` — the shared part, with the own part of every instance;
* `Service.replicate` — the calls of all instances as the calls of one service;
* `Local` — what the code of one instance keeps, said about that instance alone;
* `Everywhere.step` — if the code of each instance keeps it, all of them together keep it.
-/

namespace PaymentRail
namespace Machine

/-- A store is what is shared and what is not. -/
structure Split (τ σ μ : Type) where
  join : σ → μ → τ
  shared : τ → σ
  own : τ → μ
  shared_join : ∀ s m, shared (join s m) = s
  own_join : ∀ s m, own (join s m) = m

structure Replicas (κ σ μ : Type) where
  shared : σ
  own : κ → μ

section Replicas

variable {κ τ σ μ ρ π ι α : Type}

namespace Replicas

/-- The store as the instance `i` finds it. -/
def view (split : Split τ σ μ) (s : Replicas κ σ μ) (i : κ) : τ := split.join s.shared (s.own i)

/-- The instance `i` has left the store `t` behind. -/
def put [DecidableEq κ] (split : Split τ σ μ) (s : Replicas κ σ μ) (i : κ) (t : τ) : Replicas κ σ μ where
  shared := split.shared t
  own := Function.update s.own i (split.own t)

end Replicas

/-- The flow of a call of the instance `i`. -/
def Flow.of (i : κ) : Flow π α → Flow (κ × π) (κ × α)
  | .await p => .await (i, p)
  | .answer a => .answer (i, a)

theorem Flow.of_eq_await {i : κ} {flow : Flow π α} {q : κ × π} :
    flow.of i = .await q ↔ ∃ p, flow = .await p ∧ q = (i, p) := by
  cases flow with
  | await p => simp [Flow.of, eq_comm]
  | answer a => simp [Flow.of]

variable [DecidableEq κ]

/-- The instances `S i`, as one service. -/
def Service.replicate (split : Split τ σ μ) (S : κ → Service τ ρ π ι α Empty) :
    Service (Replicas κ σ μ) (κ × ρ) (κ × π) ι (κ × α) Empty where
  start := fun (i, r) s =>
    let (t, flow) := (S i).start r (s.view split i)
    (s.put split i t, flow.of i)
  resume := fun id (i, p) reply s =>
    match (S i).resume id p reply (s.view split i) with
    | none => none
    | some (t, flow) => some (s.put split i t, flow.of i)
  external := fun e => nomatch e

variable {split : Split τ σ μ} {S : κ → Service τ ρ π ι α Empty} {s s' : Replicas κ σ μ} {i : κ}

/-! ## Steps of an instance -/

theorem own_put_self {t : τ} : (s.put split i t).own i = split.own t :=
  Function.update_self i _ s.own

theorem own_put_of_ne {t : τ} {k : κ} (h : k ≠ i) : (s.put split i t).own k = s.own k :=
  Function.update_of_ne h _ s.own

theorem start_replicate (r : ρ) :
    (Service.replicate split S).start (i, r) s =
      (s.put split i ((S i).start r (s.view split i)).1, ((S i).start r (s.view split i)).2.of i) := rfl

theorem resume_replicate {id : CallId} {p : π} {reply : ι} {flow : Flow (κ × π) (κ × α)}
    (h : (Service.replicate split S).resume id (i, p) reply s = some (s', flow)) :
    ∃ t next, (S i).resume id p reply (s.view split i) = some (t, next) ∧ s' = s.put split i t ∧
      flow = next.of i := by
  simp only [Service.replicate] at h
  split at h
  · cases h
  · rename_i t next hresume
    cases h
    exact ⟨t, next, hresume, rfl, rfl⟩

/-! ## What the instances keep -/

/-- The code of an instance keeps `I` of what is shared, `J` of what is its own and `A` of its waiting
calls, if the requests meet `R`. -/
structure Local (split : Split τ σ μ) (S : Service τ ρ π ι α Empty) (I : σ → Prop) (J : μ → Prop)
    (A : π → Prop) (R : ρ → Prop) : Prop where
  start : ∀ r t t' flow, R r → I (split.shared t) → J (split.own t) → S.start r t = (t', flow) →
    I (split.shared t') ∧ J (split.own t') ∧ flow.Awaits A
  resume : ∀ id p reply t t' flow, I (split.shared t) → J (split.own t) → A p →
    S.resume id p reply t = some (t', flow) →
      I (split.shared t') ∧ J (split.own t') ∧ flow.Awaits A

/-- `I`, and of every instance `i` its `J i` and its `A i`. -/
structure Everywhere (I : σ → Prop) (J : κ → μ → Prop) (A : κ → π → Prop)
    (c : Calls (Replicas κ σ μ) (κ × π) (κ × α)) : Prop where
  shared : I c.store.shared
  own : ∀ i, J i (c.store.own i)
  process : ∀ id i p, c.process id = some (i, p) → A i p

section Everywhere

variable {I : σ → Prop} {J : κ → μ → Prop} {A : κ → π → Prop} {R : ρ → Prop}
  {c c' : Calls (Replicas κ σ μ) (κ × π) (κ × α)}

theorem Everywhere.go {id : CallId} {t : τ} {flow : Flow π α} (hc : Everywhere I J A c)
    (hI : I (split.shared t)) (hJ : J i (split.own t)) (hA : flow.Awaits (A i)) :
    Everywhere I J A (c.go id (c.store.put split i t) (flow.of i)) where
  shared := by
    rw [Calls.store_go]
    exact hI
  own := by
    intro k
    rw [Calls.store_go]
    by_cases hk : k = i
    · rw [hk, own_put_self]
      exact hJ
    · rw [own_put_of_ne hk]
      exact hc.own k
  process := by
    intro l k p hp
    rcases Calls.of_process_go hp with ⟨_, hflow⟩ | ⟨_, hold⟩
    · rcases Flow.of_eq_await.1 hflow with ⟨q, rfl, hq⟩
      cases hq
      exact hA
    · exact hc.process l k p hold

theorem Everywhere.step (hS : ∀ i, Local split (S i) I (J i) (A i) R)
    {m : Move (κ × ρ) ι Empty} (hc : Everywhere I J A c)
    (hm : ∀ id i r, m = .call id (i, r) → R r)
    (h : (Service.replicate split S).Steps c m c') : Everywhere I J A c' := by
  -- what an instance finds
  have hshared : ∀ i, I (split.shared (c.store.view split i)) := fun i => by
    rw [Replicas.view, split.shared_join]
    exact hc.shared
  have hown : ∀ i, J i (split.own (c.store.view split i)) := fun i => by
    rw [Replicas.view, split.own_join]
    exact hc.own i
  cases h with
  | external e store h => cases e
  | call id request hnew hunanswered =>
      obtain ⟨i, r⟩ := request
      rcases (hS i).start r _ _ _ (hm id i r rfl) (hshared i) (hown i) rfl with ⟨hI, hJ, hA⟩
      rw [start_replicate]
      exact hc.go hI hJ hA
  | resume id process reply store flow hp hresume =>
      obtain ⟨i, p⟩ := process
      rcases resume_replicate hresume with ⟨t, next, hinner, rfl, rfl⟩
      rcases (hS i).resume id p reply _ _ _ (hshared i) (hown i) (hc.process id i p hp) hinner with
        ⟨hI, hJ, hA⟩
      exact hc.go hI hJ hA

end Everywhere

end Replicas

end Machine
end PaymentRail
