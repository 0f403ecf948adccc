import Mathlib.Data.Option.Basic
import Mathlib.Data.List.Basic

/-!
# Run — executing a machine one labelled action at a time

A machine is given by a partial step function `step : α → σ → Option σ`: the label `α` carries
every choice the environment makes, and `none` means that the action is not enabled.  This file
provides:

* `run step as s` — the state after the actions `as`, if all of them were enabled in turn;
* `Reaches step s s'` — some list of actions leads from `s` to `s'`;
* `guarded` — the machine that only takes the steps which meet a condition;
* the invariant rules used by every safety proof of the development.
-/

namespace PaymentRail
namespace Machine

universe u v

variable {α : Type u} {σ : Type v}

/-! ## Runs -/

/-- Execute the actions from left to right; `none` as soon as one is not enabled. -/
def run (step : α → σ → Option σ) : List α → σ → Option σ
  | [], s => some s
  | a :: as, s =>
      match step a s with
      | some s' => run step as s'
      | none => none

/-- `s'` is reached from `s` by some list of actions. -/
def Reaches (step : α → σ → Option σ) (s s' : σ) : Prop :=
  ∃ as, run step as s = some s'

section Lemmas

variable {step : α → σ → Option σ} {s s' s'' : σ}

@[simp] theorem run_nil : run step [] s = some s := rfl

theorem run_cons_eq_some {a : α} {as : List α} :
    run step (a :: as) s = some s'' ↔ ∃ s', step a s = some s' ∧ run step as s' = some s'' := by
  cases h : step a s with
  | none =>
      simp [run, h]
  | some t =>
      simp [run, h]

theorem run_append {as bs : List α} :
    run step (as ++ bs) s = some s'' ↔
      ∃ s', run step as s = some s' ∧ run step bs s' = some s'' := by
  induction as generalizing s with
  | nil =>
      simp
  | cons a as ih =>
      constructor
      · intro h
        rcases run_cons_eq_some.1 h with ⟨t, ht, hrest⟩
        rcases ih.1 hrest with ⟨s', has, hbs⟩
        exact ⟨s', run_cons_eq_some.2 ⟨t, ht, has⟩, hbs⟩
      · rintro ⟨s', has, hbs⟩
        rcases run_cons_eq_some.1 has with ⟨t, ht, hrest⟩
        exact run_cons_eq_some.2 ⟨t, ht, ih.2 ⟨s', hrest, hbs⟩⟩

theorem Reaches.refl (s : σ) : Reaches step s s := ⟨[], rfl⟩

theorem Reaches.trans (h : Reaches step s s') (h' : Reaches step s' s'') :
    Reaches step s s'' := by
  rcases h with ⟨as, has⟩
  rcases h' with ⟨bs, hbs⟩
  exact ⟨as ++ bs, run_append.2 ⟨s', has, hbs⟩⟩

/-- The invariant rule: what every step preserves holds after every run. -/
theorem run_invariant {P : σ → Prop}
    (hstep : ∀ a s s', P s → step a s = some s' → P s')
    {as : List α} (hs : P s) (hrun : run step as s = some s') : P s' := by
  induction as generalizing s with
  | nil =>
      have hEq : s = s' := by simpa using hrun
      simpa [hEq] using hs
  | cons a as ih =>
      rcases run_cons_eq_some.1 hrun with ⟨t, ht, hrest⟩
      exact ih (hstep a s t hs ht) hrest

/-- The same where a step keeps `P` because its action is one of those of the run. -/
theorem run_invariant_mem {P : σ → Prop} {as : List α}
    (hstep : ∀ a ∈ as, ∀ s s', P s → step a s = some s' → P s') (hs : P s)
    (hrun : run step as s = some s') : P s' := by
  induction as generalizing s with
  | nil =>
      have hEq : s = s' := by simpa using hrun
      exact hEq ▸ hs
  | cons a as ih =>
      rcases run_cons_eq_some.1 hrun with ⟨t, ht, hrest⟩
      exact ih (fun b hb => hstep b (List.mem_cons_of_mem a hb))
        (hstep a List.mem_cons_self s t hs ht) hrest

/-- What holds at the end of a run, but not at its beginning, has begun to hold at some step. -/
theorem run_turns {P : σ → Prop} {as : List α} (hrun : run step as s = some s') (hs : ¬ P s)
    (hs' : P s') : ∃ before a after t t', as = before ++ a :: after ∧ run step before s = some t ∧
      ¬ P t ∧ step a t = some t' ∧ P t' ∧ run step after t' = some s' := by
  induction as generalizing s with
  | nil =>
      have hEq : s = s' := by simpa using hrun
      exact absurd (by simpa [hEq] using hs') hs
  | cons a as ih =>
      rcases run_cons_eq_some.1 hrun with ⟨t, ht, hrest⟩
      by_cases hP : P t
      · exact ⟨[], a, as, s, t, rfl, rfl, hs, ht, hP, hrest⟩
      · rcases ih hrest hP with ⟨before, b, after, u, u', rfl, hbefore, hu, hstep, hu', hafter⟩
        exact ⟨a :: before, b, after, u, u', rfl, run_cons_eq_some.2 ⟨t, ht, hbefore⟩, hu, hstep, hu',
          hafter⟩

theorem Reaches.invariant {P : σ → Prop} (h : Reaches step s s')
    (hstep : ∀ a s s', P s → step a s = some s' → P s') (hs : P s) : P s' := by
  rcases h with ⟨as, has⟩
  exact run_invariant hstep hs has

end Lemmas

/-! ## Properties of steps -/

/-- `P` holds of every step of the run. -/
def Along (step : α → σ → Option σ) (P : α → σ → σ → Prop) : List α → σ → Prop
  | [], _ => True
  | a :: as, s => ∀ s', step a s = some s' → P a s s' ∧ Along step P as s'

/-- Two properties of steps hold along the same runs if, as long as an invariant holds, each step has
both or neither of them, and keeps the invariant where it has them. -/
theorem along_iff {step : α → σ → Option σ} {I : σ → Prop} {P G : α → σ → σ → Prop}
    (hkeep : ∀ a s s', I s → step a s = some s' → G a s s' → I s' ∧ P a s s')
    (hneed : ∀ a s s', I s → step a s = some s' → P a s s' → G a s s')
    {as : List α} {s : σ} (hs : I s) : Along step P as s ↔ Along step G as s := by
  induction as generalizing s with
  | nil => exact Iff.rfl
  | cons a as ih =>
      constructor
      · intro h s' hstep
        rcases h s' hstep with ⟨hP, hrest⟩
        have hG := hneed a s s' hs hstep hP
        exact ⟨hG, (ih (hkeep a s s' hs hstep hG).1).1 hrest⟩
      · intro h s' hstep
        rcases h s' hstep with ⟨hG, hrest⟩
        rcases hkeep a s s' hs hstep hG with ⟨hs', hP⟩
        exact ⟨hP, (ih hs').2 hrest⟩

/-! ## Guarded machines -/

/-- The machine whose steps are those steps of `step` that meet `G` before they are taken. -/
def guarded (G : α → σ → Prop) [∀ a s, Decidable (G a s)] (step : α → σ → Option σ) :
    α → σ → Option σ :=
  fun a s => if G a s then step a s else none

section Guarded

variable {G : α → σ → Prop} [∀ a s, Decidable (G a s)] {step : α → σ → Option σ} {s s' : σ}

theorem guarded_eq_some {a : α} :
    guarded G step a s = some s' ↔ G a s ∧ step a s = some s' := by
  by_cases h : G a s
  · simp [guarded, h]
  · simp [guarded, h]

theorem run_of_guarded {as : List α} (h : run (guarded G step) as s = some s') :
    run step as s = some s' := by
  induction as generalizing s with
  | nil => exact h
  | cons a as ih =>
      rcases run_cons_eq_some.1 h with ⟨t, ht, hrest⟩
      exact run_cons_eq_some.2 ⟨t, (guarded_eq_some.1 ht).2, ih hrest⟩

/-- A run meets the condition at every step, or there is a step at which it does not. -/
theorem run_guarded_or {as : List α} (hrun : run step as s = some s') :
    run (guarded G step) as s = some s' ∨
      ∃ before a after t t', as = before ++ a :: after ∧ run step before s = some t ∧ ¬ G a t ∧
        step a t = some t' ∧ run step after t' = some s' := by
  induction as generalizing s with
  | nil => exact Or.inl hrun
  | cons a as ih =>
      rcases run_cons_eq_some.1 hrun with ⟨t, ht, hrest⟩
      by_cases hG : G a s
      · rcases ih hrest with hguarded | ⟨before, b, after, u, u', rfl, hbefore, hb, hstep, hafter⟩
        · exact Or.inl (run_cons_eq_some.2 ⟨t, guarded_eq_some.2 ⟨hG, ht⟩, hguarded⟩)
        · exact Or.inr ⟨a :: before, b, after, u, u', rfl, run_cons_eq_some.2 ⟨t, ht, hbefore⟩, hb,
            hstep, hafter⟩
      · exact Or.inr ⟨[], a, as, s, t, rfl, rfl, hG, ht, hrest⟩

end Guarded

end Machine
end PaymentRail
