import Mathlib.Data.Finset.Card
import Mathlib.Data.Set.Finite.Basic
import PaymentRail.Collections.Arrange

/-!
# Keyset — reading a changing table page by page

A page holds the first rows after a key, in the order of the keys.  One row more than fits is asked
for: if it is there, another page follows, and it begins after the last key of this one.

A reader that goes from page to page (`Walk`) sees the table as it stands at each request, and the
table may have changed in any way in between.  Still

* the keys it is shown increase strictly over all pages (`Walk.sorted`), so no key comes twice;
* a row that was there at every request is among the pages (`Walk.covers`);
* the reader comes to an end if finitely many keys occur (`exists_walk`).
-/

namespace PaymentRail
namespace Collections
namespace Keyset

open Arrange

universe u v

variable {ρ : Type u} {κ : Type v} [LinearOrder κ] (key : ρ → κ) (keep : ρ → Bool)

/-- Whether a row comes after a key. -/
def isAfter (after : Option κ) (row : ρ) : Bool := after.all fun k => k < key row

/-- The rows after a key that a query keeps, in order. -/
def remaining (after : Option κ) (table : List ρ) : List ρ :=
  orderBy key (table.filter fun row => isAfter key after row && keep row)

/-- What is asked for to fill a page of `limit` rows. -/
def fetch (after : Option κ) (limit : Nat) (table : List ρ) : List ρ :=
  (remaining key keep after table).take (limit + 1)

def page (after : Option κ) (limit : Nat) (table : List ρ) : List ρ :=
  (fetch key keep after limit table).take limit

/-- Where the next page begins. -/
def next (after : Option κ) (limit : Nat) (table : List ρ) : Option κ :=
  if limit < (fetch key keep after limit table).length then
    (page key keep after limit table).getLast?.map key
  else none

variable {key keep} {after : Option κ} {limit : Nat} {table : List ρ} {row : ρ}

/-! ## One page -/

theorem mem_remaining : row ∈ remaining key keep after table ↔
    row ∈ table ∧ isAfter key after row = true ∧ keep row = true := by
  simp [remaining]

theorem page_eq_take :
    page key keep after limit table = (remaining key keep after table).take limit := by
  rw [page, fetch, List.take_take, Nat.min_eq_left (Nat.le_succ limit)]

theorem mem_page (h : row ∈ page key keep after limit table) :
    row ∈ table ∧ isAfter key after row = true ∧ keep row = true := by
  rw [page_eq_take] at h
  exact mem_remaining.1 (List.mem_of_mem_take h)

theorem length_fetch : (fetch key keep after limit table).length =
    min (limit + 1) (remaining key keep after table).length :=
  List.length_take

/-- Keys occur once, so that the order of the rows is strict. -/
theorem sorted_remaining (hkeys : (table.map key).Nodup) :
    (remaining key keep after table).Pairwise fun a b => key a < key b := by
  have hle : (remaining key keep after table).Pairwise fun a b => key a ≤ key b := sorted_orderBy _
  have hne : (remaining key keep after table).Pairwise fun a b => key a ≠ key b := by
    have hfilter : ((table.filter fun row => isAfter key after row && keep row).map key).Nodup :=
      hkeys.sublist (List.filter_sublist.map key)
    exact List.pairwise_map.1 (((perm_orderBy _).map key).nodup_iff.2 hfilter)
  exact hle.imp₂ (fun _ _ h hne => lt_of_le_of_ne h hne) hne

theorem sorted_page (hkeys : (table.map key).Nodup) :
    (page key keep after limit table).Pairwise fun a b => key a < key b := by
  rw [page_eq_take]
  exact (sorted_remaining hkeys).sublist (List.take_sublist _ _)

/-- The last page holds all that remains. -/
theorem mem_page_of_next_none (hlimit : 1 ≤ limit)
    (hnext : next key keep after limit table = none) (hmem : row ∈ table)
    (hafter : isAfter key after row = true) (hkeep : keep row = true) :
    row ∈ page key keep after limit table := by
  have hall : (remaining key keep after table).length ≤ limit := by
    by_contra hlong
    have hlen : (fetch key keep after limit table).length = limit + 1 := by
      rw [length_fetch]
      omega
    have hpage : (page key keep after limit table).length = limit := by
      rw [page, List.length_take, hlen]
      omega
    rw [next, if_pos (by omega), Option.map_eq_none_iff, List.getLast?_eq_none_iff] at hnext
    rw [hnext] at hpage
    simp at hpage
    omega
  rw [page_eq_take, List.take_of_length_le hall]
  exact mem_remaining.2 ⟨hmem, hafter, hkeep⟩

theorem exists_last_of_next {k : κ} (hnext : next key keep after limit table = some k) :
    ∃ last, (page key keep after limit table).getLast? = some last ∧ key last = k := by
  unfold next at hnext
  split at hnext
  · exact Option.map_eq_some_iff.1 hnext
  · cases hnext

/-- A page ends at its last key. -/
theorem le_of_next {k : κ} (hkeys : (table.map key).Nodup)
    (hnext : next key keep after limit table = some k)
    (h : row ∈ page key keep after limit table) : key row ≤ k := by
  rcases exists_last_of_next hnext with ⟨last, hlast, rfl⟩
  rcases List.getLast?_eq_some_iff.1 hlast with ⟨front, hpage⟩
  have hsorted : (page key keep after limit table).Pairwise fun a b => key a < key b :=
    sorted_page hkeys
  rw [hpage] at h hsorted
  rcases List.mem_append.1 h with hfront | hend
  · exact le_of_lt ((List.pairwise_append.1 hsorted).2.2 row hfront last (by simp))
  · exact le_of_eq (congrArg key (List.mem_singleton.1 hend))

/-- Up to its last key a page leaves no row out. -/
theorem mem_page_of_le {k : κ} (hkeys : (table.map key).Nodup)
    (hnext : next key keep after limit table = some k) (hmem : row ∈ table)
    (hafter : isAfter key after row = true) (hkeep : keep row = true) (hle : key row ≤ k) :
    row ∈ page key keep after limit table := by
  rcases exists_last_of_next hnext with ⟨last, hlast, rfl⟩
  have hin : last ∈ page key keep after limit table := List.mem_of_getLast? hlast
  have hrow : row ∈ remaining key keep after table := mem_remaining.2 ⟨hmem, hafter, hkeep⟩
  have hsorted : (remaining key keep after table).Pairwise fun a b => key a < key b :=
    sorted_remaining hkeys
  rw [page_eq_take] at hin ⊢
  rw [← List.take_append_drop limit (remaining key keep after table)] at hrow hsorted
  rcases List.mem_append.1 hrow with htake | hdrop
  · exact htake
  · -- behind the page every key is larger than its last one
    have hlt : key last < key row := (List.pairwise_append.1 hsorted).2.2 last hin row hdrop
    exact absurd hle (not_le_of_gt hlt)

/-- The next page begins after where this one began. -/
theorem isAfter_of_next {k : κ} (hnext : next key keep after limit table = some k)
    (hrow : isAfter key (some k) row = true) : isAfter key after row = true := by
  rcases exists_last_of_next hnext with ⟨last, hlast, rfl⟩
  have hin : isAfter key after last = true := (mem_page (List.mem_of_getLast? hlast)).2.1
  cases after with
  | none =>
      rfl
  | some k =>
      simp only [isAfter, Option.all_some, decide_eq_true_eq] at hin hrow ⊢
      exact lt_trans hin hrow

/-! ## Page after page -/

variable (key keep limit) in
/-- The pages a reader is shown from a request on; `tables i` is the table at request `i`. -/
inductive Walk (tables : Nat → List ρ) : Nat → Option κ → List (List ρ) → Prop where
  | last {i : Nat} {after : Option κ} :
      next key keep after limit (tables i) = none →
        Walk tables i after [page key keep after limit (tables i)]
  | more {i : Nat} {after : Option κ} {k : κ} {pages : List (List ρ)} :
      next key keep after limit (tables i) = some k → Walk tables (i + 1) (some k) pages →
        Walk tables i after (page key keep after limit (tables i) :: pages)

namespace Walk

variable {tables : Nat → List ρ} {i : Nat} {pages : List (List ρ)}

/-- Every row shown was in the table at its request, and is one the query keeps. -/
theorem mem (h : Walk key keep limit tables i after pages) (hrow : row ∈ pages.flatten) :
    (∃ j, j < pages.length ∧ row ∈ tables (i + j)) ∧ isAfter key after row = true ∧
      keep row = true := by
  induction h with
  | last hnext =>
      rw [List.flatten_singleton] at hrow
      have hmem := mem_page hrow
      exact ⟨⟨0, Nat.one_pos, hmem.1⟩, hmem.2⟩
  | @more i after k pages hnext _ ih =>
      rw [List.flatten_cons] at hrow
      rcases List.mem_append.1 hrow with hhead | htail
      · have hmem := mem_page hhead
        exact ⟨⟨0, Nat.succ_pos _, hmem.1⟩, hmem.2⟩
      · obtain ⟨⟨j, hj, hmem⟩, hafter, hkeep⟩ := ih htail
        refine ⟨⟨j + 1, Nat.succ_lt_succ hj, ?_⟩, isAfter_of_next hnext hafter, hkeep⟩
        rw [Nat.add_right_comm i 1 j] at hmem
        exact hmem

theorem sorted (hkeys : ∀ i, ((tables i).map key).Nodup)
    (h : Walk key keep limit tables i after pages) :
    pages.flatten.Pairwise fun a b => key a < key b := by
  induction h with
  | last hnext =>
      rw [List.flatten_singleton]
      exact sorted_page (hkeys _)
  | @more i after k pages hnext hrest ih =>
      rw [List.flatten_cons, List.pairwise_append]
      refine ⟨sorted_page (hkeys i), ih, ?_⟩
      intro a ha b hb
      -- the page ends where the next one begins
      have hle : key a ≤ k := le_of_next (hkeys i) hnext ha
      have hlt : k < key b := by simpa [isAfter] using (hrest.mem hb).2.1
      exact lt_of_le_of_lt hle hlt

/-- A row that is there at every request is shown. -/
theorem covers (hlimit : 1 ≤ limit) (hkeys : ∀ i, ((tables i).map key).Nodup)
    (h : Walk key keep limit tables i after pages)
    (hrow : ∀ j, j < pages.length → row ∈ tables (i + j)) (hkeep : keep row = true)
    (hafter : isAfter key after row = true) : row ∈ pages.flatten := by
  induction h with
  | last hnext =>
      rw [List.flatten_singleton]
      exact mem_page_of_next_none hlimit hnext (hrow 0 Nat.one_pos) hafter hkeep
  | @more i after k pages hnext hrest ih =>
      rw [List.flatten_cons, List.mem_append]
      have hhere : row ∈ tables i := hrow 0 (Nat.succ_pos _)
      rcases le_or_gt (key row) k with hle | hgt
      · exact Or.inl (mem_page_of_le (hkeys i) hnext hhere hafter hkeep hle)
      · refine Or.inr (ih ?_ (by simpa [isAfter] using hgt))
        intro j hj
        rw [Nat.add_right_comm i 1 j]
        exact hrow (j + 1) (Nat.succ_lt_succ hj)

end Walk

section Ends

variable {tables : Nat → List ρ}

/-- The keys that a reader may still be shown. -/
def ahead (keys : Finset κ) (after : Option κ) : Finset κ :=
  keys.filter fun k => after.all (fun bound => bound < k) = true

/-- A page with another one to follow uses up a key. -/
theorem card_ahead_lt {keys : Finset κ} {k : κ} (hkeys : ∀ row ∈ table, key row ∈ keys)
    (hnext : next key keep after limit table = some k) :
    (ahead keys (some k)).card < (ahead keys after).card := by
  rcases exists_last_of_next hnext with ⟨last, hlast, rfl⟩
  have hmem := mem_page (List.mem_of_getLast? hlast)
  refine Finset.card_lt_card ⟨?_, ?_⟩
  · intro k hk
    rw [ahead, Finset.mem_filter] at hk ⊢
    refine ⟨hk.1, ?_⟩
    cases after with
    | none =>
        rfl
    | some bound =>
        have hlo : bound < key last := by simpa [isAfter] using hmem.2.1
        have hhi : key last < k := by simpa using hk.2
        simpa using lt_trans hlo hhi
  · intro hsub
    have hin : key last ∈ ahead keys after :=
      Finset.mem_filter.2 ⟨hkeys last hmem.1, hmem.2.1⟩
    have hself := (Finset.mem_filter.1 (hsub hin)).2
    simp at hself

/-- The induction is on the number of keys ahead. -/
theorem exists_walk_from {keys : Finset κ} (hkeys : ∀ i, ∀ row ∈ tables i, key row ∈ keys)
    (n : Nat) : ∀ (i : Nat) (after : Option κ), (ahead keys after).card ≤ n →
      ∃ pages, Walk key keep limit tables i after pages := by
  induction n with
  | zero =>
      intro i after hcard
      cases hnext : next key keep after limit (tables i) with
      | none =>
          exact ⟨_, Walk.last hnext⟩
      | some k =>
          have hlt := card_ahead_lt (hkeys i) hnext
          omega
  | succ n ih =>
      intro i after hcard
      cases hnext : next key keep after limit (tables i) with
      | none =>
          exact ⟨_, Walk.last hnext⟩
      | some k =>
          have hlt := card_ahead_lt (hkeys i) hnext
          rcases ih (i + 1) (some k) (by omega) with ⟨pages, hpages⟩
          exact ⟨_, Walk.more hnext hpages⟩

/-- With finitely many keys a reader comes to an end. -/
theorem exists_walk (hfinite : {k | ∃ i, ∃ row ∈ tables i, key row = k}.Finite) (i : Nat)
    (after : Option κ) : ∃ pages, Walk key keep limit tables i after pages := by
  refine exists_walk_from ?_ _ i after (le_refl (ahead hfinite.toFinset after).card)
  intro i row hrow
  exact hfinite.mem_toFinset.2 ⟨i, row, hrow, rfl⟩

end Ends

end Keyset
end Collections
end PaymentRail
