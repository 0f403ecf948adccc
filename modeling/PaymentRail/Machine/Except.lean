import Mathlib.Data.List.Forall2
import Mathlib.Logic.Basic

/-!
# Except — inverting computations that may throw

Functions of the source that throw are modelled in `Except String`, the error being the text of
the exception.  The lemmas below take a successful computation apart, one bind at a time, so that
proofs about such a function never unfold its `do` block by hand.
-/

namespace PaymentRail
namespace Machine

/-- Throw `reason` unless `cond` holds. -/
def require (cond : Prop) [Decidable cond] (reason : String) : Except String Unit :=
  if cond then .ok () else .error reason

@[simp] theorem require_eq_ok {cond : Prop} [Decidable cond] {reason : String} {u : Unit} :
    require cond reason = .ok u ↔ cond := by
  by_cases h : cond
  · simp [require, h]
  · simp [require, h]

/-- A bind succeeds exactly when both of its parts do. -/
theorem bind_eq_ok {ε α β : Type} {x : Except ε α} {f : α → Except ε β} {b : β} :
    (x >>= f) = .ok b ↔ ∃ a, x = .ok a ∧ f a = .ok b := by
  cases x with
  | error e =>
      simp [bind, Except.bind]
  | ok a =>
      simp [bind, Except.bind]

@[simp] theorem pure_eq_ok {ε α : Type} {a b : α} :
    (pure a : Except ε α) = .ok b ↔ a = b := by
  simp [pure, Except.pure]

@[simp] theorem ok_bind {ε α β : Type} (a : α) (f : α → Except ε β) :
    (Except.ok a >>= f) = f a := rfl

theorem require_of {cond : Prop} [Decidable cond] {reason : String} (h : cond) :
    require cond reason = .ok () :=
  require_eq_ok.2 h

/-- A loop that may throw succeeds exactly when every round does. -/
theorem mapM_eq_ok {ε α β : Type} {f : α → Except ε β} {l : List α} {l' : List β} :
    l.mapM f = .ok l' ↔ List.Forall₂ (fun a b => f a = .ok b) l l' := by
  induction l generalizing l' with
  | nil =>
      rw [List.mapM_nil, pure_eq_ok]
      constructor
      · rintro rfl
        exact .nil
      · intro h
        cases h
        rfl
  | cons a l ih =>
      simp only [List.mapM_cons, bind_eq_ok, pure_eq_ok, ih]
      constructor
      · rintro ⟨b, hb, rest, hrest, rfl⟩
        exact .cons hb hrest
      · intro h
        cases h with
        | cons hb hrest =>
            exact ⟨_, hb, _, hrest, rfl⟩

end Machine
end PaymentRail
