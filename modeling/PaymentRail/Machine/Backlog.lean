import Mathlib.Data.List.Nodup
import Mathlib.Data.List.Perm.Subperm
import PaymentRail.Machine.Run

/-!
# Backlog — work that is done in batches

A machine has a backlog: a set of keys to which no step adds any.  Some of its steps take a whole batch
of keys out of it.  However the steps interleave, there are at most as many such steps as there are
batches in the backlog (`run_backlog`); and what is in the backlog still has not been in any of them,
so nothing waits for longer than that.

The machine, the keys and the steps are arbitrary; nothing here knows what the work is.
-/

namespace PaymentRail
namespace Machine

universe u v w

variable {α : Type u} {σ : Type v} {κ : Type w}

/-- How many steps of a run are as `takes` says. -/
def occurrences (step : α → σ → Option σ) (takes : α → σ → Bool) : List α → σ → Nat
  | [], _ => 0
  | a :: as, s =>
      match step a s with
      | some s' => (if takes a s = true then 1 else 0) + occurrences step takes as s'
      | none => 0

theorem occurrences_cons {step : α → σ → Option σ} {takes : α → σ → Bool} {a : α} {as : List α}
    {s s' : σ} (h : step a s = some s') : occurrences step takes (a :: as) s =
      (if takes a s = true then 1 else 0) + occurrences step takes as s' := by
  rw [occurrences, h]

/-- Keys without repetitions, some of which are taken away. -/
theorem length_filter_add_le [DecidableEq κ] {keys taken : List κ} (hkeys : keys.Nodup)
    (htaken : taken.Nodup) (hsub : taken ⊆ keys) :
    (keys.filter fun k => k ∉ taken).length + taken.length ≤ keys.length := by
  have hnodup : ((keys.filter fun k => k ∉ taken) ++ taken).Nodup := by
    refine List.Nodup.append (hkeys.filter _) htaken ?_
    intro k hrest hk
    exact of_decide_eq_true (List.mem_filter.1 hrest).2 hk
  have hall : ((keys.filter fun k => k ∉ taken) ++ taken) ⊆ keys :=
    List.append_subset.2 ⟨fun _ hk => (List.mem_filter.1 hk).1, hsub⟩
  have hle := (List.subperm_of_subset hnodup hall).length_le
  rwa [List.length_append] at hle

/-- What a step does to a backlog: nothing is added, and a batch is taken out if `takes` says so. -/
structure Shrinks (pending pending' : κ → Prop) (takes : Bool) (batch : Nat) : Prop where
  keeps : ∀ k, pending' k → pending k
  takes : takes = true → ∃ taken : List κ, taken.Nodup ∧ taken.length = batch ∧
    ∀ k ∈ taken, pending k ∧ ¬ pending' k

/-- The rule of the backlog: if `keys` are all that is pending at the beginning of a run, the batches
that the run takes and what is pending at its end fit into them together. -/
theorem run_backlog [DecidableEq κ] {step : α → σ → Option σ} {takes : α → σ → Bool} {batch : Nat}
    {I : σ → Prop} {pending : σ → κ → Prop}
    (hstep : ∀ a s s', I s → step a s = some s' →
      I s' ∧ Shrinks (pending s) (pending s') (takes a s) batch)
    {as : List α} {s s' : σ} (hI : I s) {keys : List κ} (hkeys : keys.Nodup)
    (hall : ∀ k, pending s k → k ∈ keys) (hrun : run step as s = some s') :
    I s' ∧ ∃ rest : List κ, rest.Nodup ∧ (∀ k, pending s' k → k ∈ rest) ∧
      occurrences step takes as s * batch + rest.length ≤ keys.length := by
  induction as generalizing s keys with
  | nil =>
      cases hrun
      exact ⟨hI, keys, hkeys, hall, by simp [occurrences]⟩
  | cons a as ih =>
      rcases run_cons_eq_some.1 hrun with ⟨t, ht, hrest⟩
      rcases hstep a s t hI ht with ⟨hIt, hshrinks⟩
      rw [occurrences_cons ht]
      cases htakes : takes a s with
      | false =>
          rcases ih hIt hkeys (fun k hk => hall k (hshrinks.keeps k hk)) hrest with
            ⟨hI', rest, hnodup, hcover, hle⟩
          exact ⟨hI', rest, hnodup, hcover, by simpa using hle⟩
      | true =>
          rcases hshrinks.takes htakes with ⟨taken, htaken, hlength, hgone⟩
          have hsub : taken ⊆ keys := fun k hk => hall k (hgone k hk).1
          -- what is left after the batch is pending still, or was not pending any more
          have hcover' : ∀ k, pending t k → k ∈ keys.filter fun k => k ∉ taken := by
            intro k hk
            refine List.mem_filter.2 ⟨hall k (hshrinks.keeps k hk), decide_eq_true ?_⟩
            exact fun hmem => (hgone k hmem).2 hk
          rcases ih hIt (hkeys.filter _) hcover' hrest with ⟨hI', rest, hnodup, hcover, hle⟩
          refine ⟨hI', rest, hnodup, hcover, ?_⟩
          have hfits := length_filter_add_le hkeys htaken hsub
          rw [hlength] at hfits
          calc (1 + occurrences step takes as t) * batch + rest.length
              = batch + (occurrences step takes as t * batch + rest.length) := by
                rw [Nat.add_mul, Nat.one_mul, Nat.add_assoc]
            _ ≤ batch + (keys.filter fun k => k ∉ taken).length := Nat.add_le_add_left hle _
            _ ≤ keys.length := by rw [Nat.add_comm]; exact hfits

end Machine
end PaymentRail
