import Mathlib.Data.List.Induction
import Mathlib.Data.List.Sort
import Mathlib.Data.Prod.Lex

/-!
# Arrange — ordering, grouping and slicing rows

- `orderBy` sorts rows by a column, `ORDER BY`;
- `groupBy` collects rows under their keys, the keys in order of first appearance;
- `slices` cuts a list into runs of a fixed length, the last one possibly shorter.

Each of them only rearranges: what comes out is what went in.
-/

namespace PaymentRail
namespace Collections
namespace Arrange

universe u v w

variable {ρ : Type u} {κ : Type v}

/-! ## Ordering -/

section OrderBy

variable [LinearOrder κ] (column : ρ → κ)

def orderBy (rows : List ρ) : List ρ := rows.insertionSort fun a b => column a ≤ column b

variable {column}

theorem perm_orderBy (rows : List ρ) : (orderBy column rows).Perm rows :=
  List.perm_insertionSort _ rows

@[simp] theorem mem_orderBy {rows : List ρ} {row : ρ} : row ∈ orderBy column rows ↔ row ∈ rows :=
  (perm_orderBy rows).mem_iff

theorem sorted_orderBy (rows : List ρ) :
    (orderBy column rows).Pairwise fun a b => column a ≤ column b := by
  have htotal : Std.Total fun a b : ρ => column a ≤ column b := ⟨fun a b => le_total _ _⟩
  have htrans : IsTrans ρ fun a b => column a ≤ column b := ⟨fun a b c => le_trans⟩
  exact List.pairwise_insertionSort _ rows

/-- A row is among the first `limit` ones as soon as there is room for all that may precede it. -/
theorem mem_take_orderBy {rows : List ρ} {row : ρ} {limit : Nat} (hrow : row ∈ rows)
    (hroom : (rows.countP fun other => column other ≤ column row) ≤ limit) :
    row ∈ (orderBy column rows).take limit := by
  have hsorted : (orderBy column rows).Pairwise fun a b => column a ≤ column b := sorted_orderBy rows
  have hperm : (orderBy column rows).Perm rows := perm_orderBy rows
  have hmem : row ∈ orderBy column rows := hperm.mem_iff.2 hrow
  rw [← hperm.countP_eq] at hroom
  rw [← List.take_append_drop limit (orderBy column rows)] at hmem hsorted hroom
  rcases List.mem_append.1 hmem with hfirst | hbehind
  · exact hfirst
  · -- all of the first `limit` rows precede it, so that it is one too many
    have hbefore : ∀ other ∈ (orderBy column rows).take limit, column other ≤ column row :=
      fun other hother => (List.pairwise_append.1 hsorted).2.2 other hother row hbehind
    have htake : ((orderBy column rows).take limit).countP (fun other => column other ≤ column row) =
        limit := by
      have hlong : limit < (orderBy column rows).length := by
        by_contra hshort
        rw [List.drop_eq_nil_of_le (Nat.le_of_not_lt hshort)] at hbehind
        cases hbehind
      rw [List.countP_eq_length.2 fun other hother => decide_eq_true (hbefore other hother),
        List.length_take, Nat.min_eq_left (Nat.le_of_lt hlong)]
    have hself : 0 < ((orderBy column rows).drop limit).countP
        (fun other => column other ≤ column row) :=
      List.countP_pos_iff.2 ⟨row, hbehind, decide_eq_true (le_refl _)⟩
    rw [List.countP_append, htake] at hroom
    omega

/-- A row that is not among the first `limit` ones is preceded by as many. -/
theorem take_orderBy_of_not_mem {rows : List ρ} {row : ρ} {limit : Nat} (hrow : row ∈ rows)
    (hnot : row ∉ (orderBy column rows).take limit) :
    ((orderBy column rows).take limit).length = limit ∧
      ∀ other ∈ (orderBy column rows).take limit, column other ≤ column row := by
  have hsorted : (orderBy column rows).Pairwise fun a b => column a ≤ column b := sorted_orderBy rows
  have hmem : row ∈ orderBy column rows := mem_orderBy.2 hrow
  rw [← List.take_append_drop limit (orderBy column rows)] at hmem hsorted
  have hbehind : row ∈ (orderBy column rows).drop limit :=
    (List.mem_append.1 hmem).resolve_left hnot
  constructor
  · refine List.length_take_of_le ?_
    by_contra hshort
    rw [List.drop_eq_nil_of_le (Nat.le_of_not_le hshort)] at hbehind
    cases hbehind
  · exact fun other hother => (List.pairwise_append.1 hsorted).2.2 other hother row hbehind

/-- A row with at least `limit` rows before it is not returned. -/
theorem not_mem_take_orderBy {rows before : List ρ} {row : ρ} {limit : Nat} (hnodup : before.Nodup)
    (hsubset : before ⊆ rows) (hbefore : ∀ other ∈ before, column other < column row)
    (hlimit : limit ≤ before.length) : row ∉ (orderBy column rows).take limit := by
  intro htaken
  have hsorted : (orderBy column rows).Pairwise fun a b => column a ≤ column b := sorted_orderBy rows
  have hall : ∀ other ∈ before,
      other ∈ (orderBy column rows).take limit ++ (orderBy column rows).drop limit := by
    intro other hother
    rw [List.take_append_drop]
    exact mem_orderBy.2 (hsubset hother)
  rw [← List.take_append_drop limit (orderBy column rows)] at hsorted
  -- what is left behind is not before the row
  have hfirst : row :: before ⊆ (orderBy column rows).take limit := by
    refine List.cons_subset.2 ⟨htaken, ?_⟩
    intro other hother
    refine (List.mem_append.1 (hall other hother)).resolve_right ?_
    intro hbehind
    exact absurd ((List.pairwise_append.1 hsorted).2.2 row htaken other hbehind)
      (not_le_of_gt (hbefore other hother))
  have hdistinct : (row :: before).Nodup :=
    List.nodup_cons.2 ⟨fun hmem => absurd (hbefore row hmem) (lt_irrefl _), hnodup⟩
  have hlength := (List.subperm_of_subset hdistinct hfirst).length_le
  rw [List.length_cons] at hlength
  exact absurd (hlength.trans (List.length_take_le _ _)) (Nat.not_le.2 (Nat.lt_succ_of_le hlimit))

/-- Rows that stand in strictly increasing order are what any rearrangement of them is sorted to. -/
theorem orderBy_eq_of_perm {rows sorted : List ρ} (hperm : rows.Perm sorted)
    (hsorted : sorted.Pairwise fun a b => column a < column b) : orderBy column rows = sorted := by
  have hord : (orderBy column rows).Pairwise fun a b => column a ≤ column b := sorted_orderBy rows
  have hle : sorted.Pairwise fun a b => column a ≤ column b := hsorted.imp fun h => le_of_lt h
  -- strictly increasing means that the column tells the rows apart
  have hinj : ∀ a ∈ sorted, ∀ b ∈ sorted, column a = column b → a = b := by
    have hne : sorted.Pairwise fun a b => column a ≠ column b := hsorted.imp fun h => ne_of_lt h
    have hkeys : (sorted.map column).Nodup := List.pairwise_map.2 hne
    exact fun a ha b hb h => List.inj_on_of_nodup_map hkeys ha hb h
  refine ((perm_orderBy rows).trans hperm).eq_of_pairwise ?_ hord hle
  intro a b ha hb hab hba
  have ha' : a ∈ sorted := hperm.mem_iff.1 (mem_orderBy.1 ha)
  exact hinj a ha' b hb (le_antisymm hab hba)

end OrderBy

/-! ## Grouping -/

section GroupBy

variable [DecidableEq κ] (key : ρ → κ)

/-- Append a row to the group of its key, or open a new group behind the others. -/
def push (row : ρ) : List (κ × List ρ) → List (κ × List ρ)
  | [] => [(key row, [row])]
  | (k, group) :: groups =>
      if k = key row then (k, group ++ [row]) :: groups else (k, group) :: push row groups

def groupBy (rows : List ρ) : List (κ × List ρ) :=
  rows.foldl (fun groups row => push key row groups) []

/-- All rows, group by group. -/
def members (groups : List (κ × List ρ)) : List ρ := groups.flatMap Prod.snd

variable {key}

theorem perm_members_push (row : ρ) (groups : List (κ × List ρ)) :
    (members (push key row groups)).Perm (members groups ++ [row]) := by
  induction groups with
  | nil => simp [push, members]
  | cons head groups ih =>
      rcases head with ⟨k, group⟩
      by_cases h : k = key row
      · have hmove : (group ++ ([row] ++ members groups)).Perm (group ++ (members groups ++ [row])) :=
          List.perm_append_comm.append_left group
        simpa [push, h, members] using hmove
      · have hrest := ih.append_left group
        simpa [push, h, members] using hrest

theorem perm_members_groupBy (rows : List ρ) : (members (groupBy key rows)).Perm rows := by
  -- from any groups already built
  have hfold : ∀ (rows : List ρ) (groups : List (κ × List ρ)),
      (members (rows.foldl (fun groups row => push key row groups) groups)).Perm
        (members groups ++ rows) := by
    intro rows
    induction rows with
    | nil => simp
    | cons row rows ih =>
        intro groups
        have hhead : (members (push key row groups) ++ rows).Perm (members groups ++ [row] ++ rows) :=
          (perm_members_push row groups).append_right rows
        simpa using (ih (push key row groups)).trans hhead
  simpa [groupBy, members] using hfold rows []

variable (key) in
/-- A row joins the group of its key, or opens a group of its own. -/
theorem push_cases (row : ρ) (groups : List (κ × List ρ)) :
    (∃ before group after, groups = before ++ (key row, group) :: after ∧
      push key row groups = before ++ (key row, group ++ [row]) :: after) ∨
    (key row ∉ groups.map Prod.fst ∧ push key row groups = groups ++ [(key row, [row])]) := by
  induction groups with
  | nil => exact Or.inr ⟨List.not_mem_nil, rfl⟩
  | cons head groups ih =>
      rcases head with ⟨k, group⟩
      by_cases h : k = key row
      · subst h
        exact Or.inl ⟨[], group, groups, rfl, if_pos rfl⟩
      · rcases ih with ⟨before, found, after, rfl, hpush⟩ | ⟨hnew, hpush⟩
        · exact Or.inl ⟨(k, group) :: before, found, after, rfl, by simp [push, h, hpush]⟩
        · refine Or.inr ⟨?_, by simp [push, h, hpush]⟩
          simp only [List.map_cons, List.mem_cons, not_or]
          exact ⟨fun hk => h hk.symm, hnew⟩

/-- What `groupBy` makes of `rows`: a group of its own for every key that occurs. -/
structure Grouped (key : ρ → κ) (rows : List ρ) (groups : List (κ × List ρ)) : Prop where
  nodup : (groups.map Prod.fst).Nodup
  group : ∀ k group, (k, group) ∈ groups → group = rows.filter fun row => decide (key row = k)
  complete : ∀ row ∈ rows, key row ∈ groups.map Prod.fst

theorem filter_concat_of_ne {rows : List ρ} {row : ρ} {k : κ} (h : k ≠ key row) :
    (rows ++ [row]).filter (fun r => decide (key r = k)) =
      rows.filter fun r => decide (key r = k) := by
  simp [List.filter_append, Ne.symm h]

theorem filter_concat_self (rows : List ρ) (row : ρ) :
    (rows ++ [row]).filter (fun r => decide (key r = key row)) =
      rows.filter (fun r => decide (key r = key row)) ++ [row] := by
  simp [List.filter_append]

/-- The row joins the group of its key. -/
theorem Grouped.join {rows : List ρ} {before after : List (κ × List ρ)} {row : ρ} {found : List ρ}
    (h : Grouped key rows (before ++ (key row, found) :: after)) :
    Grouped key (rows ++ [row]) (before ++ (key row, found ++ [row]) :: after) := by
  have hkeys : (before ++ (key row, found ++ [row]) :: after).map Prod.fst =
      (before ++ (key row, found) :: after).map Prod.fst := by
    simp
  refine ⟨by rw [hkeys]; exact h.nodup, ?_, ?_⟩
  · intro k group hmem
    by_cases hk : k = key row
    · -- the keys are distinct, so it is the group the row has joined
      subst hk
      have hnodup := h.nodup
      rw [List.map_append, List.map_cons, List.nodup_append] at hnodup
      have hsame : group = found ++ [row] := by
        rcases List.mem_append.1 hmem with hmem | hmem
        · exact absurd rfl (hnodup.2.2 _ (List.mem_map_of_mem hmem) _ List.mem_cons_self)
        · rcases List.mem_cons.1 hmem with heq | hmem
          · exact (Prod.mk.inj heq).2
          · exact absurd (List.mem_map_of_mem (f := Prod.fst) hmem)
              (List.nodup_cons.1 hnodup.2.1).1
      rw [hsame, filter_concat_self, ← h.group (key row) found (by simp)]
    · rw [filter_concat_of_ne hk]
      refine h.group k group ?_
      rcases List.mem_append.1 hmem with hmem | hmem
      · exact List.mem_append_left _ hmem
      · rcases List.mem_cons.1 hmem with heq | hmem
        · exact absurd (Prod.mk.inj heq).1 hk
        · exact List.mem_append_right _ (List.mem_cons_of_mem _ hmem)
  · intro r hr
    rw [hkeys]
    rcases List.mem_append.1 hr with hr | hr
    · exact h.complete r hr
    · rw [List.mem_singleton.1 hr]
      simp

/-- The row opens a group of its own. -/
theorem Grouped.concat {rows : List ρ} {groups : List (κ × List ρ)} (h : Grouped key rows groups)
    {row : ρ} (hnew : key row ∉ groups.map Prod.fst) :
    Grouped key (rows ++ [row]) (groups ++ [(key row, [row])]) := by
  have hnone : rows.filter (fun r => decide (key r = key row)) = [] := by
    refine List.filter_eq_nil_iff.2 ?_
    intro r hr hk
    rw [← of_decide_eq_true hk] at hnew
    exact hnew (h.complete r hr)
  refine ⟨?_, ?_, ?_⟩
  · rw [List.map_append]
    refine h.nodup.append (List.nodup_singleton _) ?_
    intro k hk hk'
    rw [List.mem_singleton.1 hk'] at hk
    exact hnew hk
  · intro k group hmem
    rcases List.mem_append.1 hmem with hmem | hmem
    · have hk : k ≠ key row := by
        rintro rfl
        exact hnew (List.mem_map_of_mem (f := Prod.fst) hmem)
      rw [filter_concat_of_ne hk]
      exact h.group k group hmem
    · obtain ⟨rfl, rfl⟩ := Prod.mk.inj (List.mem_singleton.1 hmem)
      rw [filter_concat_self, hnone, List.nil_append]
  · intro r hr
    rw [List.map_append]
    rcases List.mem_append.1 hr with hr | hr
    · exact List.mem_append_left _ (h.complete r hr)
    · rw [List.mem_singleton.1 hr]
      simp

theorem Grouped.push {rows : List ρ} {groups : List (κ × List ρ)} (h : Grouped key rows groups)
    (row : ρ) : Grouped key (rows ++ [row]) (Arrange.push key row groups) := by
  rcases push_cases key row groups with ⟨before, found, after, rfl, hpush⟩ | ⟨hnew, hpush⟩
  · rw [hpush]
    exact h.join
  · rw [hpush]
    exact h.concat hnew

theorem grouped_groupBy (rows : List ρ) : Grouped key rows (groupBy key rows) := by
  induction rows using List.reverseRecOn with
  | nil => exact ⟨List.nodup_nil, fun _ _ hmem => absurd hmem List.not_mem_nil,
      fun _ hmem => absurd hmem List.not_mem_nil⟩
  | append_singleton rows row ih =>
      rw [groupBy, List.foldl_append]
      exact ih.push row

/-- What is made of the group of one key alone. -/
theorem Grouped.flatMap_key {β : Type w} {rows : List ρ} {groups : List (κ × List ρ)}
    (h : Grouped key rows groups) {f : List ρ → List β} (hf : f [] = []) (k : κ) :
    (groups.flatMap fun group => if group.1 = k then f group.2 else []) =
      f (rows.filter fun row => decide (key row = k)) := by
  by_cases hk : k ∈ groups.map Prod.fst
  · rcases List.mem_map.1 hk with ⟨⟨k', group⟩, hmem, rfl⟩
    rcases List.append_of_mem hmem with ⟨before, after, rfl⟩
    have hnodup := h.nodup
    rw [List.map_append, List.map_cons, List.nodup_append] at hnodup
    have hnil : ∀ side : List (κ × List ρ), (∀ g ∈ side, g.1 ≠ k') →
        (side.flatMap fun g => if g.1 = k' then f g.2 else []) = [] := by
      intro side hside
      refine List.flatMap_eq_nil_iff.2 ?_
      intro g hg
      exact if_neg (hside g hg)
    rw [List.flatMap_append, List.flatMap_cons, if_pos rfl, hnil before, hnil after,
      ← h.group _ group hmem]
    · simp
    · intro g hg heq
      refine (List.nodup_cons.1 hnodup.2.1).1 ?_
      show k' ∈ after.map Prod.fst
      rw [← heq]
      exact List.mem_map_of_mem hg
    · intro g hg
      exact hnodup.2.2 _ (List.mem_map_of_mem hg) _ List.mem_cons_self
  · have hnone : rows.filter (fun row => decide (key row = k)) = [] := by
      refine List.filter_eq_nil_iff.2 ?_
      intro row hrow heq
      rw [← of_decide_eq_true heq] at hk
      exact hk (h.complete row hrow)
    rw [hnone, hf]
    refine List.flatMap_eq_nil_iff.2 ?_
    intro group hgroup
    refine if_neg ?_
    rintro rfl
    exact hk (List.mem_map_of_mem hgroup)

end GroupBy

/-! ## Slicing -/

/-- `slice(i, i + n)` for `i = 0, n, 2n, …` below the length. -/
def slices (n : Nat) (rows : List ρ) : List (List ρ) :=
  (List.range ((rows.length + (n - 1)) / n)).map fun k => (rows.drop (k * n)).take n

/-- The first `m` runs are the first `m * n` rows. -/
theorem flatten_range_slices (n m : Nat) (rows : List ρ) :
    ((List.range m).map fun k => (rows.drop (k * n)).take n).flatten = rows.take (m * n) := by
  induction m with
  | zero => simp
  | succ m ih => simp [List.range_succ, ih, Nat.succ_mul, List.take_add]

theorem flatten_slices_prefix (n : Nat) (rows : List ρ) : (slices n rows).flatten <+: rows := by
  rw [slices, flatten_range_slices]
  exact List.take_prefix _ _

section Full

variable {n : Nat} (hn : 0 < n) {rows : List ρ}

include hn

/-- There are enough runs for all rows, and no run too many. -/
theorem lt_slices_iff {k : Nat} : k < (rows.length + (n - 1)) / n ↔ k * n < rows.length := by
  rw [Nat.lt_iff_add_one_le, Nat.le_div_iff_mul_le hn, Nat.add_mul, Nat.one_mul]
  omega

theorem flatten_slices : (slices n rows).flatten = rows := by
  rw [slices, flatten_range_slices]
  refine List.take_of_length_le ?_
  refine Nat.le_of_not_lt ?_
  exact mt (lt_slices_iff hn).2 (Nat.lt_irrefl _)

theorem length_of_mem_slices {run : List ρ} (h : run ∈ slices n rows) :
    run ≠ [] ∧ run.length ≤ n := by
  rcases List.mem_map.1 h with ⟨k, hk, rfl⟩
  have hless := (lt_slices_iff hn).1 (List.mem_range.1 hk)
  refine ⟨?_, List.length_take_le _ _⟩
  rw [← List.length_pos_iff, List.length_take, List.length_drop]
  omega

/-- The runs that are not cut short are as many whole runs as fit. -/
theorem flatten_full_slices :
    ((slices n rows).filter fun run => decide (run.length = n)).flatten =
      rows.take (rows.length / n * n) := by
  have hfull : ∀ k, ((rows.drop (k * n)).take n).length = n ↔ k < rows.length / n := by
    intro k
    rw [List.length_take, List.length_drop, Nat.lt_iff_add_one_le, Nat.le_div_iff_mul_le hn,
      Nat.add_mul, Nat.one_mul]
    omega
  obtain ⟨rest, hrest⟩ : ∃ rest, (rows.length + (n - 1)) / n = rows.length / n + rest :=
    ⟨_, (Nat.add_sub_cancel' (Nat.div_le_div_right (Nat.le_add_right _ _))).symm⟩
  have hfilter : (List.range ((rows.length + (n - 1)) / n)).filter
      ((fun run => decide (run.length = n)) ∘ fun k => (rows.drop (k * n)).take n) =
      List.range (rows.length / n) := by
    rw [hrest, List.range_add, List.filter_append, List.filter_eq_self.2, List.filter_eq_nil_iff.2,
      List.append_nil]
    · intro k hk hlength
      rcases List.mem_map.1 hk with ⟨j, _, rfl⟩
      have hless := (hfull _).1 (of_decide_eq_true hlength)
      omega
    · intro k hk
      exact decide_eq_true ((hfull k).2 (List.mem_range.1 hk))
  rw [slices, List.filter_map, hfilter, flatten_range_slices]

end Full

/-- Leaving out runs leaves the rest in place. -/
theorem flatten_filter_sublist (keep : List ρ → Bool) (runs : List (List ρ)) :
    (runs.filter keep).flatten.Sublist runs.flatten := by
  induction runs with
  | nil => exact List.Sublist.refl _
  | cons head runs ih =>
      cases h : keep head with
      | true => simpa [h] using ih
      | false =>
          have hskip := ih.trans (List.sublist_append_right head runs.flatten)
          simpa [h] using hskip

/-! ## Positions -/

/-- In a list without duplicates an entry has one position. -/
theorem idxOf?_eq_some_iff_of_nodup [DecidableEq κ] {keys : List κ} (hnodup : keys.Nodup) {k : κ}
    {i : Nat} : keys.idxOf? k = some i ↔ keys[i]? = some k := by
  rw [List.idxOf?_eq_some_iff, List.getElem?_eq_some_iff]
  constructor
  · rintro ⟨hi, hk, _⟩
    exact ⟨hi, hk⟩
  · rintro ⟨hi, hk⟩
    refine ⟨hi, hk, ?_⟩
    intro j hj hjk
    have hsame : j = i := hnodup.getElem_inj_iff.1 (hjk.trans hk.symm)
    exact absurd hsame (Nat.ne_of_lt hj)

end Arrange
end Collections
end PaymentRail
