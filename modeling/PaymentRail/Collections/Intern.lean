import Mathlib.Data.Finset.Card
import Mathlib.Data.List.Basic
import Mathlib.Data.List.Dedup

/-!
# Intern — keys in order of first appearance

A dictionary that grows while a list is read keeps each key once, at the position where it was
first met.  Positions never change, so an index handed out early stays valid in the final
dictionary.
-/

namespace PaymentRail
namespace Collections

universe u

variable {α : Type u} [DecidableEq α]

/-- Add a key that is not there yet at the end. -/
def intern (d : List α) (k : α) : List α :=
  if k ∈ d then d else d ++ [k]

def internAll (d : List α) (ks : List α) : List α :=
  ks.foldl intern d

theorem mem_intern {d : List α} {k x : α} : x ∈ intern d k ↔ x ∈ d ∨ x = k := by
  by_cases h : k ∈ d
  · have hsame : x = k → x ∈ d := fun hx => hx ▸ h
    simpa [intern, h] using hsame
  · simp [intern, h]

theorem prefix_intern (d : List α) (k : α) : d <+: intern d k := by
  by_cases h : k ∈ d
  · simp [intern, h]
  · simp [intern, h]

theorem nodup_intern {d : List α} {k : α} (h : d.Nodup) : (intern d k).Nodup := by
  by_cases hk : k ∈ d
  · simpa [intern, hk] using h
  · have hdisjoint : d.Disjoint [k] := by simpa using hk
    simpa [intern, hk] using h.append (List.nodup_singleton k) hdisjoint

@[simp] theorem internAll_nil (d : List α) : internAll d [] = d := rfl

@[simp] theorem internAll_cons (d : List α) (k : α) (ks : List α) :
    internAll d (k :: ks) = internAll (intern d k) ks := rfl

theorem internAll_append (d ks ls : List α) :
    internAll d (ks ++ ls) = internAll (internAll d ks) ls := by
  simp [internAll]

theorem prefix_internAll (d ks : List α) : d <+: internAll d ks := by
  induction ks generalizing d with
  | nil =>
      simp
  | cons k ks ih =>
      exact (prefix_intern d k).trans (ih (intern d k))

theorem mem_internAll {d ks : List α} {x : α} : x ∈ internAll d ks ↔ x ∈ d ∨ x ∈ ks := by
  induction ks generalizing d with
  | nil =>
      simp
  | cons k ks ih =>
      rw [internAll_cons, ih, mem_intern, List.mem_cons, or_assoc]

theorem nodup_internAll {d : List α} (ks : List α) (h : d.Nodup) : (internAll d ks).Nodup := by
  induction ks generalizing d with
  | nil =>
      simpa using h
  | cons k ks ih =>
      exact ih (nodup_intern h)

/-- Started empty, the dictionary has one entry for each distinct key. -/
theorem length_internAll (ks : List α) : (internAll [] ks).length = ks.toFinset.card := by
  have hnodup : (internAll [] ks).Nodup := nodup_internAll ks List.nodup_nil
  have hmem : (internAll [] ks).toFinset = ks.toFinset := by
    ext x
    simp [mem_internAll]
  calc
    (internAll [] ks).length
        = (internAll [] ks).toFinset.card := (List.toFinset_card_of_nodup hnodup).symm
    _ = ks.toFinset.card := by rw [hmem]

section Position

variable [BEq α] [LawfulBEq α]

/-- The position of a key does not change while the dictionary grows. -/
theorem idxOf_internAll {d : List α} {k : α} (ks : List α) (h : k ∈ d) :
    (internAll d ks).idxOf k = d.idxOf k :=
  ((prefix_internAll d ks).idxOf_eq_of_mem h).symm

omit [DecidableEq α] in
theorem idxOf?_of_mem {d : List α} {k : α} (h : k ∈ d) : d.idxOf? k = some (d.idxOf k) := by
  rcases Option.isSome_iff_exists.1 (List.isSome_idxOf?.2 h) with ⟨i, hi⟩
  rw [List.idxOf_eq_getD_idxOf?, hi, Option.getD_some]

end Position

end Collections
end PaymentRail
