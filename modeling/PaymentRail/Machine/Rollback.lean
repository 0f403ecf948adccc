import Mathlib.Data.List.Basic

/-!
# Rollback — nested calls that keep or undo their effects

A `Journal σ κ` is a current state together with the stack of calls that are still executing.
Each pending call remembers the state it would restore (`snapshot`) and a tag of type `κ` that
says how to go on when it returns.

The three stack operations are `enter`, `commit` and `rollback`.  The point of the file is the
rule `Journal.All`: a property of states that every forward update preserves holds of the current
state *and* of every snapshot, so it also holds after any rollback.
-/

namespace PaymentRail
namespace Machine

universe u v

/-- A call that has not returned yet. -/
structure Frame (σ : Type u) (κ : Type v) where
  snapshot : σ
  tag : κ

/-- The current state and the calls still executing, innermost first. -/
structure Journal (σ : Type u) (κ : Type v) where
  current : σ
  stack : List (Frame σ κ)

namespace Journal

variable {σ : Type u} {κ : Type v}

/-- A journal with no call executing. -/
def start (s : σ) : Journal σ κ := { current := s, stack := [] }

/-- Replace the current state. -/
def update (j : Journal σ κ) (s : σ) : Journal σ κ := { j with current := s }

/-- Start a call: remember the current state and continue from `s`. -/
def enter (j : Journal σ κ) (tag : κ) (s : σ) : Journal σ κ :=
  { current := s, stack := { snapshot := j.current, tag := tag } :: j.stack }

/-- The innermost call returns and its effects, ending in `s`, are kept. -/
def commit (j : Journal σ κ) (s : σ) : Journal σ κ :=
  { current := s, stack := j.stack.tail }

/-- The innermost call fails: everything since its start is undone. -/
def rollback (j : Journal σ κ) : Journal σ κ :=
  match j.stack with
  | [] => j
  | f :: rest => { current := f.snapshot, stack := rest }

/-- `P` holds of the current state and of every state a rollback could restore. -/
def All (P : σ → Prop) (j : Journal σ κ) : Prop :=
  P j.current ∧ ∀ f ∈ j.stack, P f.snapshot

section All

variable {P : σ → Prop} {j : Journal σ κ} {s : σ}

theorem All.start (h : P s) : All P (start s : Journal σ κ) := by
  refine ⟨h, ?_⟩
  intro f hf
  cases hf

theorem All.update (hj : All P j) (h : P s) : All P (j.update s) :=
  ⟨h, hj.2⟩

theorem All.enter {tag : κ} (hj : All P j) (h : P s) : All P (j.enter tag s) := by
  refine ⟨h, ?_⟩
  intro f hf
  rcases List.mem_cons.1 hf with hEq | hmem
  · simpa [hEq] using hj.1
  · exact hj.2 f hmem

theorem All.commit (hj : All P j) (h : P s) : All P (j.commit s) := by
  refine ⟨h, ?_⟩
  intro f hf
  exact hj.2 f (List.mem_of_mem_tail hf)

theorem All.rollback (hj : All P j) : All P j.rollback := by
  cases hstack : j.stack with
  | nil =>
      simpa [Journal.rollback, hstack] using hj
  | cons f rest =>
      have hmem : ∀ g ∈ f :: rest, P g.snapshot := by
        simpa [hstack] using hj.2
      have hf : P f.snapshot := hmem f (by simp)
      have hrest : ∀ g ∈ rest, P g.snapshot := fun g hg => hmem g (by simp [hg])
      simpa [Journal.rollback, hstack, All] using And.intro hf hrest

end All

end Journal

end Machine
end PaymentRail
