import Mathlib.Algebra.BigOperators.Group.List.Basic
import Mathlib.Algebra.BigOperators.Ring.List
import Mathlib.Algebra.Order.Group.MinMax
import Mathlib.Algebra.Order.Ring.Int
import Mathlib.Order.Monotone.Basic
import Mathlib.Tactic.Ring

/-!
# Rounding — shares of an amount, rounded down

* `Steady f` — a charge `f` that grows with the amount, and leaves a rest that grows as well.
  Constants, the amount itself and a rounded share of it are steady, and so are the smaller and the
  larger of two steady charges.
* `shares_within` — a sum of rounded shares against the rounded share of the sum.
-/

namespace PaymentRail
namespace Money

/-! ## Steady charges -/

section Steady

variable {α : Type} [AddCommGroup α] [LinearOrder α]

/-- A larger amount is charged no less, and leaves no less. -/
structure Steady (f : α → α) : Prop where
  charge : Monotone f
  rest : Monotone fun a => a - f a

theorem steady_id : Steady (fun a : α => a) where
  charge := monotone_id
  rest := by
    simp only [sub_self]
    exact monotone_const

variable [IsOrderedAddMonoid α]

theorem steady_const (c : α) : Steady (fun _ : α => c) where
  charge := monotone_const
  rest := fun _ _ h => sub_le_sub_right h c

variable {f g : α → α}

/-- The rest of the smaller charge is the larger rest. -/
theorem Steady.min (hf : Steady f) (hg : Steady g) : Steady fun a => min (f a) (g a) where
  charge := hf.charge.min hg.charge
  rest := by
    simp only [← max_sub_sub_left]
    exact hf.rest.max hg.rest

theorem Steady.max (hf : Steady f) (hg : Steady g) : Steady fun a => max (f a) (g a) where
  charge := hf.charge.max hg.charge
  rest := by
    simp only [← min_sub_sub_left]
    exact hf.rest.min hg.rest

end Steady

/-- A share of at most the whole, rounded down. -/
theorem steady_share {r d : Int} (hr : 0 ≤ r) (hrd : r ≤ d) (hd : 0 < d) :
    Steady fun a : Int => a * r / d where
  charge := fun a b h => Int.ediv_le_ediv hd (Int.mul_le_mul_of_nonneg_right h hr)
  rest := by
    intro a b h
    -- the share of `b` is at most the share of `a` and all that was added
    have hmul : b * r ≤ a * r + (b - a) * d := by
      calc
        b * r = a * r + (b - a) * r := by ring
        _ ≤ a * r + (b - a) * d :=
            Int.add_le_add_left (Int.mul_le_mul_of_nonneg_left hrd (Int.sub_nonneg.2 h)) _
    have hshare : b * r / d ≤ a * r / d + (b - a) := by
      calc
        b * r / d ≤ (a * r + (b - a) * d) / d := Int.ediv_le_ediv hd hmul
        _ = a * r / d + (b - a) := Int.add_mul_ediv_right _ _ (Int.ne_of_gt hd)
    show a - a * r / d ≤ b - b * r / d
    omega

/-! ## Sums of rounded quotients -/

section Quotients

variable {d : Int} (hd : 0 < d)

include hd

/-- Rounding once loses less than rounding twice. -/
theorem ediv_add_le (x y : Int) :
    x / d + y / d ≤ (x + y) / d ∧ (x + y) / d ≤ x / d + y / d + 1 := by
  refine ⟨Int.ediv_add_ediv_le_add_ediv hd, ?_⟩
  have hx := Int.lt_ediv_add_one_mul_self x hd
  have hy := Int.lt_ediv_add_one_mul_self y hd
  have hlt : x + y < (x / d + y / d + 1 + 1) * d := by
    calc
      x + y < (x / d + 1) * d + (y / d + 1) * d := Int.add_lt_add hx hy
      _ = (x / d + y / d + 1 + 1) * d := by ring
  exact Int.lt_add_one_iff.1 (Int.ediv_lt_of_lt_mul hd hlt)

theorem sum_ediv_le (xs : List Int) : (xs.map (· / d)).sum ≤ xs.sum / d := by
  induction xs with
  | nil => simp
  | cons x xs ih =>
      rw [List.map_cons, List.sum_cons, List.sum_cons]
      exact (Int.add_le_add_left ih _).trans (ediv_add_le hd x xs.sum).1

/-- Each part after the first one loses less than one. -/
theorem ediv_sum_le {xs : List Int} (hne : xs ≠ []) :
    xs.sum / d ≤ (xs.map (· / d)).sum + (xs.length - 1 : Nat) := by
  induction xs with
  | nil => exact absurd rfl hne
  | cons x xs ih =>
      rw [List.map_cons, List.sum_cons, List.sum_cons, List.length_cons, Nat.add_sub_cancel]
      by_cases hnil : xs = []
      · simp [hnil]
      · have hpos : 0 < xs.length := List.length_pos_iff.2 hnil
        have hlength : ((xs.length - 1 : Nat) : Int) = xs.length - 1 := by omega
        have hrest := ih hnil
        have hhead := (ediv_add_le hd x xs.sum).2
        omega

/-- Shares of the parts against the share of the whole. -/
theorem shares_within (r : Int) {xs : List Int} (hne : xs ≠ []) :
    (xs.map (· * r / d)).sum ≤ xs.sum * r / d ∧
      xs.sum * r / d ≤ (xs.map (· * r / d)).sum + (xs.length - 1 : Nat) := by
  have hparts : xs.map (· * r / d) = (xs.map (· * r)).map (· / d) := by
    rw [List.map_map]
    rfl
  have hwhole : xs.sum * r = (xs.map (· * r)).sum := by
    rw [List.sum_map_mul_right xs (fun x => x) r, List.map_id']
  have hless := ediv_sum_le hd (mt List.map_eq_nil_iff.1 hne : xs.map (· * r) ≠ [])
  rw [List.length_map] at hless
  rw [hparts, hwhole]
  exact ⟨sum_ediv_le hd _, hless⟩

end Quotients

end Money
end PaymentRail
