import Mathlib.Algebra.Order.BigOperators.Group.List
import Mathlib.Algebra.Order.Ring.Int
import Mathlib.Data.List.Perm.Subperm
import PaymentRail.Collections.Intern

/-!
# Sums — comparing sums over the rows of queries

`SUM(column) ... WHERE p` is the sum of a column over the rows that a filter keeps.  The lemmas
compare such sums: over a filter and over all rows, over a stricter filter, and over two tables whose
rows belong together.  The last one is about the weights of a dictionary.
-/

namespace PaymentRail
namespace Collections

universe u v

variable {α : Type u} {β : Type v}

/-- Rows that add nothing may be left out. -/
theorem sum_map_filter {l : List α} {p : α → Bool} {f g : α → Int}
    (hkeep : ∀ a ∈ l, p a = true → f a = g a) (hskip : ∀ a ∈ l, p a = false → f a = 0) :
    (l.map f).sum = ((l.filter p).map g).sum := by
  induction l with
  | nil => rfl
  | cons a l ih =>
      have hrest := ih (fun b hb => hkeep b (List.mem_cons_of_mem a hb))
        (fun b hb => hskip b (List.mem_cons_of_mem a hb))
      rw [List.map_cons, List.sum_cons, hrest]
      cases hp : p a with
      | true =>
          rw [List.filter_cons_of_pos hp, List.map_cons, List.sum_cons, hkeep a List.mem_cons_self hp]
      | false =>
          rw [List.filter_cons_of_neg (by simp [hp]), hskip a List.mem_cons_self hp, zero_add]

/-- A list without repetitions whose members are all in another one sums to at most as much. -/
theorem sum_map_le_of_subset {l l' : List α} {g : α → Int} (hnodup : l.Nodup) (hsubset : l ⊆ l')
    (hnonneg : ∀ a ∈ l', 0 ≤ g a) : (l.map g).sum ≤ (l'.map g).sum := by
  rcases List.subperm_of_subset hnodup hsubset with ⟨sub, hperm, hsub⟩
  rw [← (hperm.map g).sum_eq]
  refine List.Sublist.sum_le_sum (hsub.map g) ?_
  intro x hx
  rcases List.mem_map.1 hx with ⟨a, ha, rfl⟩
  exact hnonneg a ha

/-- If every row of `l` has a partner of its own in `l'`, which adds at least as much, then so does
the whole of `l'`. -/
theorem sum_map_le_of_partner {l : List α} {l' : List β} {f : α → Int} {g : β → Int}
    (partner : α → Option β) (hnodup : (l.map partner).Nodup)
    (hpartner : ∀ a ∈ l, ∃ b ∈ l', partner a = some b ∧ f a ≤ g b)
    (hnonneg : ∀ b ∈ l', 0 ≤ g b) : (l.map f).sum ≤ (l'.map g).sum := by
  let g' : Option β → Int := fun b => b.elim 0 g
  have hle : (l.map f).sum ≤ ((l.map partner).map g').sum := by
    rw [List.map_map]
    refine List.sum_le_sum ?_
    intro a ha
    rcases hpartner a ha with ⟨b, _, hb, hfg⟩
    simpa [g', hb] using hfg
  have hsubset : l.map partner ⊆ l'.map some := by
    intro x hx
    rcases List.mem_map.1 hx with ⟨a, ha, rfl⟩
    rcases hpartner a ha with ⟨b, hb, hpa, _⟩
    exact List.mem_map.2 ⟨b, hb, hpa.symm⟩
  have hnonneg' : ∀ x ∈ l'.map some, 0 ≤ g' x := by
    intro x hx
    rcases List.mem_map.1 hx with ⟨b, hb, rfl⟩
    exact hnonneg b hb
  calc (l.map f).sum
      ≤ ((l.map partner).map g').sum := hle
    _ ≤ ((l'.map some).map g').sum := sum_map_le_of_subset hnodup hsubset hnonneg'
    _ = (l'.map g).sum := by
          rw [List.map_map]
          rfl

/-- Rows may be summed owner by owner. -/
theorem sum_map_eq_sum_owners {κ : Type v} [DecidableEq κ] {l : List α} {owners : List β}
    {f : α → Int} {key : β → κ} {owner : α → Option κ} (hnodup : (owners.map key).Nodup)
    (howned : ∀ a ∈ l, ∃ b ∈ owners, owner a = some (key b)) :
    (l.map f).sum =
      (owners.map fun b => ((l.filter fun a => owner a = some (key b)).map f).sum).sum := by
  induction owners generalizing l with
  | nil =>
      cases l with
      | nil => rfl
      | cons a l =>
          rcases howned a List.mem_cons_self with ⟨b, hb, _⟩
          cases hb
  | cons b owners ih =>
      rw [List.map_cons, List.nodup_cons] at hnodup
      -- what the first owner has not is owned by the others
      have hrest := ih (l := l.filter fun a => ¬ owner a = some (key b)) hnodup.2 ?_
      · rw [List.map_cons, List.sum_cons,
          ← List.sum_map_filter_add_sum_map_filter_not (fun a => owner a = some (key b)) f l, hrest]
        congr 2
        apply List.map_congr_left
        intro other hother
        rw [List.filter_filter]
        congr 2
        apply List.filter_congr
        intro a _
        have hne : key other ≠ key b := by
          intro hkey
          exact hnodup.1 (hkey ▸ List.mem_map_of_mem hother)
        by_cases howner : owner a = some (key other)
        · simp [howner, hne]
        · simp [howner]
      · intro a ha
        rcases List.mem_filter.1 ha with ⟨hmem, hnot⟩
        rcases howned a hmem with ⟨other, hother, howner⟩
        rcases List.mem_cons.1 hother with rfl | hother
        · exact absurd howner (by simpa using hnot)
        · exact ⟨other, hother, howner⟩

/-- A dictionary of keys that weigh at least `b` each saves `b` for every key that it had already. -/
theorem sum_internAll [DecidableEq α] {f : α → Nat} {b : Nat} {ks : List α}
    (h : ∀ k ∈ ks, b ≤ f k) (d : List α) :
    ((internAll d ks).map f).sum + b * (d.length + ks.length) ≤
      (d.map f).sum + (ks.map f).sum + b * (internAll d ks).length := by
  induction ks generalizing d with
  | nil => simp
  | cons k ks ih =>
      have hrest := ih (fun l hl => h l (List.mem_cons_of_mem k hl)) (intern d k)
      have hk : b ≤ f k := h k List.mem_cons_self
      by_cases hmem : k ∈ d
      · have hsame : intern d k = d := by simp [intern, hmem]
        simp only [internAll_cons, hsame, List.map_cons, List.sum_cons, List.length_cons] at hrest ⊢
        rw [← Nat.add_assoc, Nat.mul_succ]
        omega
      · have hnew : intern d k = d ++ [k] := by simp [intern, hmem]
        simp only [internAll_cons, hnew, List.map_append, List.sum_append, List.map_cons, List.map_nil,
          List.sum_cons, List.sum_nil, List.length_append, List.length_cons, List.length_nil] at hrest ⊢
        rw [show d.length + (ks.length + 1) = d.length + (0 + 1) + ks.length by omega]
        omega

end Collections
end PaymentRail
