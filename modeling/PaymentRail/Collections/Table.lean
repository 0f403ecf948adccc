import Mathlib.Algebra.BigOperators.Group.List.Basic
import Mathlib.Data.List.Nodup

/-!
# Table — rows with a primary key

A table is a list of rows; the order of the list means nothing.  `put` inserts a row or replaces
the row with the same key, and `drop` removes a key.  A table built this way has each key once
(`Keyed`), and its rows stay under their keys (`Evolves`).
-/

namespace PaymentRail
namespace Collections

universe u v

variable {ρ : Type u} {κ : Type v} [DecidableEq κ] (key : ρ → κ)

namespace Table

/-- The row with the key `k`. -/
def lookup (rows : List ρ) (k : κ) : Option ρ :=
  rows.find? fun row => key row = k

def drop (rows : List ρ) (k : κ) : List ρ :=
  rows.filter fun row => key row ≠ k

/-- Insert or replace. -/
def put (rows : List ρ) (row : ρ) : List ρ :=
  row :: drop key rows (key row)

/-- Each key occurs once. -/
def Keyed (rows : List ρ) : Prop := (rows.map key).Nodup

variable {key} {rows : List ρ} {row : ρ} {k : κ}

theorem mem_of_lookup (h : lookup key rows k = some row) : row ∈ rows :=
  List.mem_of_find?_eq_some h

theorem key_of_lookup (h : lookup key rows k = some row) : key row = k := by
  simpa using List.find?_some h

theorem lookup_eq_none : lookup key rows k = none ↔ ∀ row ∈ rows, key row ≠ k := by
  simp [lookup]

@[simp] theorem mem_drop {x : ρ} : x ∈ drop key rows k ↔ x ∈ rows ∧ key x ≠ k := by
  simp [drop]

@[simp] theorem lookup_drop_self : lookup key (drop key rows k) k = none := by
  simp [lookup_eq_none]

theorem lookup_drop_of_ne {j : κ} (h : k ≠ j) :
    lookup key (drop key rows k) j = lookup key rows j := by
  induction rows with
  | nil =>
      rfl
  | cons row rows ih =>
      by_cases hk : key row = k
      · have hj : key row ≠ j := fun hEq => h (hk.symm.trans hEq)
        simpa [lookup, drop, hk, hj, h] using ih
      · by_cases hj : key row = j
        · simp [lookup, drop, hj, Ne.symm h]
        · simpa [lookup, drop, hk, hj] using ih

/-- There is nothing to drop. -/
theorem drop_eq_self (h : lookup key rows k = none) : drop key rows k = rows := by
  refine List.filter_eq_self.2 ?_
  intro row hrow
  simpa using lookup_eq_none.1 h row hrow

@[simp] theorem lookup_put_self (rows : List ρ) (row : ρ) :
    lookup key (put key rows row) (key row) = some row := by
  simp [lookup, put]

theorem lookup_put_of_ne (rows : List ρ) (row : ρ) (h : key row ≠ k) :
    lookup key (put key rows row) k = lookup key rows k := by
  have hskip : lookup key (put key rows row) k = lookup key (drop key rows (key row)) k := by
    simp [lookup, put, h]
  rw [hskip, lookup_drop_of_ne h]

theorem lookup_of_mem (hkeyed : Keyed key rows) (h : row ∈ rows) :
    lookup key rows (key row) = some row := by
  induction rows with
  | nil =>
      cases h
  | cons first rows ih =>
      have hcons := List.nodup_cons.1 hkeyed
      rcases List.mem_cons.1 h with rfl | hmem
      · simp [lookup]
      · have hne : key first ≠ key row := by
          intro hEq
          exact hcons.1 (List.mem_map.2 ⟨row, hmem, hEq.symm⟩)
        simpa [lookup, hne] using ih hcons.2 hmem

theorem Keyed.drop (h : Keyed key rows) : Keyed key (drop key rows k) :=
  List.Nodup.sublist (List.Sublist.map key List.filter_sublist) h

theorem Keyed.put (h : Keyed key rows) : Keyed key (put key rows row) := by
  have hfresh : key row ∉ (Table.drop key rows (key row)).map key := by
    intro hmem
    rcases List.mem_map.1 hmem with ⟨other, hother, hEq⟩
    exact (mem_drop.1 hother).2 hEq
  exact List.nodup_cons.2 ⟨hfresh, h.drop⟩

/-- What is in a table after `put`. -/
theorem mem_put {x : ρ} (h : x ∈ put key rows row) : x = row ∨ (x ∈ rows ∧ key x ≠ key row) := by
  rcases List.mem_cons.1 h with rfl | hmem
  · exact Or.inl rfl
  · exact Or.inr (mem_drop.1 hmem)

omit [DecidableEq κ] in
/-- A row is known by its key. -/
theorem Keyed.eq_of_key (h : Keyed key rows) {x y : ρ} (hx : x ∈ rows) (hy : y ∈ rows)
    (hkey : key x = key y) : x = y :=
  List.inj_on_of_nodup_map h hx hy hkey

omit [DecidableEq κ] in
/-- A query whose results all have the same key returns one row at most. -/
theorem Keyed.length_filter_le_one (h : Keyed key rows) {p : ρ → Bool}
    (hsame : ∀ x ∈ rows, ∀ y ∈ rows, p x = true → p y = true → key x = key y) :
    (rows.filter p).length ≤ 1 := by
  have hnodup : (rows.filter p).Nodup := (List.Nodup.of_map key h).filter p
  match hrows : rows.filter p with
  | [] => simp
  | [x] => simp
  | x :: y :: rest =>
      have hx := List.mem_filter.1 (hrows ▸ List.mem_cons_self : x ∈ rows.filter p)
      have hy := List.mem_filter.1
        (hrows ▸ List.mem_cons_of_mem _ List.mem_cons_self : y ∈ rows.filter p)
      have hEq : x = y := h.eq_of_key hx.1 hy.1 (hsame x hx.1 y hy.1 hx.2 hy.2)
      rw [hrows, hEq] at hnodup
      simp at hnodup

omit [DecidableEq κ] in
/-- A value of a unique column that may be null is in one row at most. -/
theorem length_filter_le_one_of_unique {f : ρ → Option κ} (h : (rows.filterMap f).Nodup) {p : ρ → Bool}
    (hp : ∀ row, p row = true → f row = some k) : (rows.filter p).length ≤ 1 := by
  induction rows with
  | nil => simp
  | cons row rows ih =>
      by_cases hrow : p row = true
      · rw [List.filterMap_cons_some (hp row hrow)] at h
        have hnone : rows.filter p = [] := by
          rw [List.filter_eq_nil_iff]
          intro other hother hpo
          exact (List.nodup_cons.1 h).1 (List.mem_filterMap.2 ⟨other, hother, hp other hpo⟩)
        simp [hrow, hnone]
      · rw [List.filter_cons_of_neg hrow]
        refine ih ?_
        exact h.sublist ((List.sublist_cons_self row rows).filterMap f)

/-! ### Updating rows in place -/

section Update

variable {g : ρ → ρ}

theorem lookup_map (hg : ∀ row, key (g row) = key row) :
    lookup key (rows.map g) k = (lookup key rows k).map g := by
  induction rows with
  | nil =>
      rfl
  | cons row rows ih =>
      by_cases hk : key row = k
      · simp [lookup, hg, hk]
      · -- neither list has the row at its head
        have hold : lookup key (row :: rows) k = lookup key rows k :=
          List.find?_cons_of_neg (by simpa using hk)
        have hnew : lookup key (g row :: rows.map g) k = lookup key (rows.map g) k :=
          List.find?_cons_of_neg (by simpa [hg] using hk)
        rw [List.map_cons, hnew, hold, ih]

omit [DecidableEq κ] in
theorem Keyed.map (h : Keyed key rows) (hg : ∀ row, key (g row) = key row) :
    Keyed key (rows.map g) := by
  have hkeys : (rows.map g).map key = rows.map key := by
    simp [Function.comp_def, hg]
  rw [Keyed, hkeys]
  exact h

end Update

/-! ### Rows that stay -/

/-- Every row is still found under its key, changed as `R` says. -/
def Evolves (key : ρ → κ) (R : ρ → ρ → Prop) (rows rows' : List ρ) : Prop :=
  ∀ k row, lookup key rows k = some row → ∃ row', lookup key rows' k = some row' ∧ R row row'

section Evolves

variable {R : ρ → ρ → Prop} {rows' : List ρ}

theorem Evolves.of_eq (hR : ∀ row, R row row) (h : rows' = rows) : Evolves key R rows rows' := by
  intro k row hrow
  exact ⟨row, by rw [h]; exact hrow, hR row⟩

/-- Only the row that is replaced has to be looked at. -/
theorem Evolves.put (hR : ∀ row, R row row)
    (h : ∀ old, lookup key rows (key row) = some old → R old row) :
    Evolves key R rows (put key rows row) := by
  intro k old hold
  by_cases hk : key row = k
  · subst hk
    exact ⟨row, lookup_put_self rows row, h old hold⟩
  · exact ⟨old, (lookup_put_of_ne rows row hk).trans hold, hR old⟩

theorem Evolves.put_new (hR : ∀ row, R row row) (h : lookup key rows (key row) = none) :
    Evolves key R rows (Table.put key rows row) := by
  refine .put hR ?_
  intro old hold
  rw [h] at hold
  cases hold

theorem Evolves.map {g : ρ → ρ} (hg : ∀ row, key (g row) = key row) (h : ∀ row, R row (g row)) :
    Evolves key R rows (rows.map g) := by
  intro k row hrow
  exact ⟨g row, by rw [lookup_map hg, hrow, Option.map_some], h row⟩

end Evolves

/-! ### Sums over a table -/

section Sums

variable {M : Type} [AddCommMonoid M] (f : ρ → M)

/-- The rows without a key, and the row of that key. -/
theorem sum_drop_add (h : Keyed key rows) (k : κ) :
    ((drop key rows k).map f).sum + (lookup key rows k).elim 0 f = (rows.map f).sum := by
  induction rows with
  | nil =>
      simp [drop, lookup]
  | cons row rows ih =>
      have hcons := List.nodup_cons.1 h
      by_cases hk : key row = k
      · -- the key does not occur again, so nothing else is dropped
        have hrest : ∀ x ∈ rows, key x ≠ k := by
          intro x hx hEq
          exact hcons.1 (List.mem_map.2 ⟨x, hx, hEq.trans hk.symm⟩)
        have hdrop : drop key rows k = rows := drop_eq_self (lookup_eq_none.2 hrest)
        have hskip : drop key (row :: rows) k = rows := by
          rw [drop, List.filter_cons_of_neg (by simp [hk])]
          exact hdrop
        rw [hskip]
        simp [lookup, hk, add_comm]
      · have hkeep : drop key (row :: rows) k = row :: drop key rows k := by
          simp [drop, hk]
        have hlookup : lookup key (row :: rows) k = lookup key rows k := by
          simp [lookup, hk]
        rw [hkeep, hlookup, List.map_cons, List.map_cons, List.sum_cons, List.sum_cons, add_assoc,
          ih hcons.2]

/-- Inserting or replacing a row moves a sum by the difference of the two rows. -/
theorem sum_put_add (h : Keyed key rows) (row : ρ) :
    ((put key rows row).map f).sum + (lookup key rows (key row)).elim 0 f =
      (rows.map f).sum + f row := by
  rw [put, List.map_cons, List.sum_cons, add_assoc, sum_drop_add f h, add_comm]

end Sums

end Table

end Collections
end PaymentRail
