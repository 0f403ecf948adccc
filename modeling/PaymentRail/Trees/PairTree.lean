import Mathlib.Data.List.GetD
import Mathlib.Data.List.Perm.Basic
import Mathlib.Data.List.Nodup
import Mathlib.Data.Nat.Log
import Mathlib.Order.Iterate

/-!
# PairTree — levels, paths and commitments of a pairing tree

A list of nodes is combined level by level with a binary function `node`: neighbours are paired,
and the last node of a level of odd length is paired with itself.  Over an arbitrary type of nodes
this file provides

* `parents`, `top` and `path`: one level up, the single node at the top, and the siblings met on
  the way there;
* completeness: folding a node with its path gives the top (`top_eq_foldl_path`);
* soundness and binding under `CollisionFree`, which only speaks about the pairs that are really
  combined (`mem_level_of_foldl_eq_top`, `perm_of_top_eq`).

`CollisionFree` is stated over a list of pairs on purpose: no function with outputs of bounded
size is free of collisions on *all* pairs.
-/

namespace PaymentRail
namespace PairTree

universe u

variable {α : Type u}

/-! ## One level -/

/-- The pairs of a level, the last node of an odd level with itself. -/
def pairs : List α → List (α × α)
  | [] => []
  | [a] => [(a, a)]
  | a :: b :: rest => (a, b) :: pairs rest

theorem length_pairs (level : List α) : (pairs level).length = (level.length + 1) / 2 := by
  induction level using pairs.induct with
  | case1 =>
      simp [pairs]
  | case2 a =>
      simp [pairs]
  | case3 a b rest ih =>
      simp [pairs, ih]
      omega

theorem mem_of_mem_pairs {level : List α} {p : α × α} (h : p ∈ pairs level) :
    p.1 ∈ level ∧ p.2 ∈ level := by
  induction level using pairs.induct with
  | case1 =>
      cases h
  | case2 a =>
      have hEq : p = (a, a) := by simpa [pairs] using h
      simp [hEq]
  | case3 a b rest ih =>
      rcases List.mem_cons.1 h with hEq | hmem
      · simp [hEq]
      · rcases ih hmem with ⟨hfst, hsnd⟩
        exact ⟨by simp [hfst], by simp [hsnd]⟩

theorem exists_pair_of_mem {level : List α} {a : α} (h : a ∈ level) :
    ∃ p ∈ pairs level, a = p.1 ∨ a = p.2 := by
  induction level using pairs.induct with
  | case1 =>
      cases h
  | case2 b =>
      refine ⟨(b, b), by simp [pairs], Or.inl ?_⟩
      simpa using h
  | case3 b c rest ih =>
      rcases List.mem_cons.1 h with hb | h
      · exact ⟨(b, c), by simp [pairs], Or.inl hb⟩
      · rcases List.mem_cons.1 h with hc | h
        · exact ⟨(b, c), by simp [pairs], Or.inr hc⟩
        · rcases ih h with ⟨p, hp, hside⟩
          exact ⟨p, by simp [pairs, hp], hside⟩

variable (node : α → α → α)

/-- One level up. -/
def parents (level : List α) : List α :=
  (pairs level).map (fun p => node p.1 p.2)

@[simp] theorem length_parents (level : List α) :
    (parents node level).length = (level.length + 1) / 2 := by
  simp [parents, length_pairs]

/-- A parent combines the nodes `2 * j` and `2 * j + 1`, or the former with itself. -/
theorem getD_parents (d : α) :
    ∀ (level : List α) (j : Nat), 2 * j < level.length →
      (parents node level).getD j d =
        node (level.getD (2 * j) d) (level.getD (2 * j + 1) (level.getD (2 * j) d)) := by
  intro level
  induction level using pairs.induct with
  | case1 =>
      intro j hj
      simp at hj
  | case2 a =>
      intro j hj
      have hzero : j = 0 := by
        simp at hj
        omega
      subst hzero
      rfl
  | case3 a b rest ih =>
      intro j hj
      cases j with
      | zero =>
          rfl
      | succ j =>
          have hlen : 2 * j < rest.length := by
            simp at hj
            omega
          -- dropping the first pair shifts the children by two
          have hrest := ih j hlen
          have hdouble : 2 * (j + 1) = 2 * j + 2 := by omega
          simpa [parents, pairs, hdouble] using hrest

/-! ## The whole tree -/

/-- Go up while more than one node is left. -/
def top (level : List α) : List α :=
  if 1 < level.length then top (parents node level) else level
termination_by level.length
decreasing_by
  simp
  omega

/-- The siblings met on the way up from `position`; a node without a neighbour is its own
sibling. -/
def path (d : α) (level : List α) (position : Nat) : List α :=
  if 1 < level.length then
    let sibling := if position % 2 = 0 then position + 1 else position - 1
    level.getD sibling (level.getD position d) :: path d (parents node level) (position / 2)
  else
    []
termination_by level.length
decreasing_by
  simp
  omega

/-- All pairs combined while going up. -/
def treePairs (level : List α) : List (α × α) :=
  if 1 < level.length then pairs level ++ treePairs (parents node level) else []
termination_by level.length
decreasing_by
  simp
  omega

variable {node}

theorem top_of_one_lt {level : List α} (h : 1 < level.length) :
    top node level = top node (parents node level) := by
  rw [top, if_pos h]

theorem top_of_le_one {level : List α} (h : level.length ≤ 1) : top node level = level := by
  rw [top, if_neg (Nat.not_lt.2 h)]

theorem treePairs_of_one_lt {level : List α} (h : 1 < level.length) :
    treePairs node level = pairs level ++ treePairs node (parents node level) := by
  rw [treePairs, if_pos h]

theorem path_of_one_lt {d : α} {level : List α} {position : Nat} (h : 1 < level.length) :
    path node d level position =
      level.getD (if position % 2 = 0 then position + 1 else position - 1)
          (level.getD position d) ::
        path node d (parents node level) (position / 2) := by
  rw [path, if_pos h]

/-- The number of levels above the leaves. -/
def depth (level : List α) : Nat := Nat.clog 2 level.length

theorem depth_of_le_one {level : List α} (h : level.length ≤ 1) : depth level = 0 :=
  Nat.clog_of_right_le_one h 2

theorem depth_of_one_lt (node : α → α → α) {level : List α} (h : 1 < level.length) :
    depth level = depth (parents node level) + 1 := by
  have hclog := Nat.clog_of_two_le (b := 2) (by decide) h
  simpa [depth] using hclog

/-- Induction over the levels of a tree. -/
theorem level_induction (node : α → α → α) {P : List α → Prop}
    (base : ∀ level : List α, level.length ≤ 1 → P level)
    (up : ∀ level : List α, 1 < level.length → P (parents node level) → P level)
    (level : List α) : P level := by
  induction level using top.induct node with
  | case1 level h ih =>
      exact up level h ih
  | case2 level h =>
      exact base level (Nat.le_of_not_lt h)

theorem length_top {level : List α} (h : level ≠ []) : (top node level).length = 1 := by
  induction level using level_induction node with
  | base level hle =>
      rw [top_of_le_one hle]
      have hpos := List.length_pos_iff.2 h
      omega
  | up level hlt ih =>
      rw [top_of_one_lt hlt]
      refine ih ?_
      intro hnil
      have hlen := congrArg List.length hnil
      rw [length_parents, List.length_nil] at hlen
      omega

theorem length_path {d : α} (level : List α) :
    ∀ position, (path node d level position).length = depth level := by
  induction level using level_induction node with
  | base level hle =>
      intro position
      rw [path, if_neg (Nat.not_lt.2 hle), depth_of_le_one hle]
      rfl
  | up level hlt ih =>
      intro position
      rw [path_of_one_lt hlt, List.length_cons, ih, depth_of_one_lt node hlt]

/-! ## What all nodes have in common -/

section Forall

variable {P : α → Prop} (hnode : ∀ a b, P a → P b → P (node a b))
include hnode

theorem forall_mem_parents {level : List α} (h : ∀ a ∈ level, P a) :
    ∀ a ∈ parents node level, P a := by
  intro a ha
  rcases List.mem_map.1 ha with ⟨p, hp, rfl⟩
  rcases mem_of_mem_pairs hp with ⟨hfst, hsnd⟩
  exact hnode _ _ (h _ hfst) (h _ hsnd)

theorem forall_mem_top {level : List α} (h : ∀ a ∈ level, P a) : ∀ a ∈ top node level, P a := by
  induction level using level_induction node with
  | base level hle =>
      rw [top_of_le_one hle]
      exact h
  | up level hlt ih =>
      rw [top_of_one_lt hlt]
      exact ih (forall_mem_parents hnode h)

theorem forall_mem_path {d : α} {level : List α} (h : ∀ a ∈ level, P a) :
    ∀ position, position < level.length → ∀ a ∈ path node d level position, P a := by
  induction level using level_induction node with
  | base level hle =>
      intro position _ a ha
      rw [path, if_neg (Nat.not_lt.2 hle)] at ha
      cases ha
  | up level hlt ih =>
      intro position hposition a ha
      rw [path_of_one_lt hlt] at ha
      rcases List.mem_cons.1 ha with hhead | htail
      · -- the sibling is a node of this level, whether or not it is in range
        have hmem : ∀ i, level.getD i (level.getD position d) ∈ level := by
          intro i
          by_cases hi : i < level.length
          · rw [List.getD_eq_getElem _ _ hi]
            exact List.getElem_mem hi
          · rw [List.getD_eq_default _ _ (Nat.le_of_not_lt hi), List.getD_eq_getElem _ _ hposition]
            exact List.getElem_mem hposition
        rw [hhead]
        exact h _ (hmem _)
      · refine ih (forall_mem_parents hnode h) (position / 2) ?_ a htail
        simp
        omega

end Forall

/-! ## Completeness -/

/-- Combining a node with its sibling gives its parent. -/
theorem node_sibling (hcomm : ∀ a b, node a b = node b a) {d : α} {level : List α}
    {position : Nat} (h : position < level.length) :
    node (level.getD position d)
        (level.getD (if position % 2 = 0 then position + 1 else position - 1)
          (level.getD position d)) =
      (parents node level).getD (position / 2) d := by
  rw [getD_parents node d level (position / 2) (by omega)]
  by_cases heven : position % 2 = 0
  · have hdouble : 2 * (position / 2) = position := by omega
    rw [if_pos heven, hdouble]
  -- an odd position is the right half of its pair
  · have hdouble : 2 * (position / 2) = position - 1 := by omega
    have hsucc : position - 1 + 1 = position := by omega
    have hleft : position - 1 < level.length := by omega
    rw [if_neg heven, hdouble, hsucc, hcomm]
    simp only [List.getD_eq_getElem _ _ hleft, List.getD_eq_getElem _ _ h]

/-- Folding a node with its path gives the top of the tree. -/
theorem top_eq_foldl_path (hcomm : ∀ a b, node a b = node b a) {d : α} (level : List α) :
    ∀ position, position < level.length →
      top node level = [(path node d level position).foldl node (level.getD position d)] := by
  induction level using level_induction node with
  | base level hle =>
      intro position hposition
      have hlen : level.length = 1 := by omega
      have hzero : position = 0 := by omega
      rcases List.length_eq_one_iff.1 hlen with ⟨a, rfl⟩
      rw [top_of_le_one hle, path, if_neg (by simp), hzero]
      rfl
  | up level hlt ih =>
      intro position hposition
      have hhalf : position / 2 < (parents node level).length := by
        simp
        omega
      rw [top_of_one_lt hlt, path_of_one_lt hlt, List.foldl_cons, node_sibling hcomm hposition]
      exact ih (position / 2) hhalf

/-! ## Collisions -/

/-- Among the pairs of `S`, only a pair and its mirror image are combined to the same node. -/
def CollisionFree (node : α → α → α) (S : List (α × α)) : Prop :=
  ∀ p ∈ S, ∀ q ∈ S, node p.1 p.2 = node q.1 q.2 → p = q ∨ p = q.swap

instance [DecidableEq α] (node : α → α → α) (S : List (α × α)) :
    Decidable (CollisionFree node S) :=
  inferInstanceAs (Decidable (∀ p ∈ S, ∀ q ∈ S, node p.1 p.2 = node q.1 q.2 → p = q ∨ p = q.swap))

theorem CollisionFree.mono {S T : List (α × α)} (h : CollisionFree node T) (hsub : S ⊆ T) :
    CollisionFree node S :=
  fun p hp q hq => h p (hsub hp) q (hsub hq)

/-- Pairs that are combined to the same node have the same members. -/
theorem CollisionFree.mem_iff {S : List (α × α)} (h : CollisionFree node S) {p q : α × α}
    (hp : p ∈ S) (hq : q ∈ S) (hEq : node p.1 p.2 = node q.1 q.2) (a : α) :
    (a = p.1 ∨ a = p.2) ↔ (a = q.1 ∨ a = q.2) := by
  rcases h p hp q hq hEq with rfl | rfl
  · exact Iff.rfl
  · exact or_comm

/-! ## Soundness of paths -/

/-- The `k`-th level above the leaves. -/
def levelAt (node : α → α → α) (leaves : List α) (k : Nat) : List α :=
  (parents node)^[k] leaves

theorem levelAt_succ (leaves : List α) (k : Nat) :
    levelAt node leaves (k + 1) = parents node (levelAt node leaves k) :=
  Function.iterate_succ_apply' (parents node) k leaves

theorem levelAt_parents (leaves : List α) (k : Nat) :
    levelAt node (parents node leaves) k = levelAt node leaves (k + 1) :=
  (Function.iterate_succ_apply (parents node) k leaves).symm

theorem levelAt_depth (leaves : List α) : levelAt node leaves (depth leaves) = top node leaves := by
  induction leaves using level_induction node with
  | base level hle =>
      rw [depth_of_le_one hle, top_of_le_one hle]
      rfl
  | up level hlt ih =>
      rw [depth_of_one_lt node hlt, top_of_one_lt hlt, ← ih, levelAt_parents]

/-- Below the top, the pairs of every level are among the pairs of the tree. -/
theorem pairs_levelAt_subset (leaves : List α) :
    ∀ k, k < depth leaves → pairs (levelAt node leaves k) ⊆ treePairs node leaves := by
  induction leaves using level_induction node with
  | base level hle =>
      intro k hk
      rw [depth_of_le_one hle] at hk
      omega
  | up level hlt ih =>
      intro k hk p hp
      rw [treePairs_of_one_lt hlt]
      cases k with
      | zero =>
          exact List.mem_append_left _ hp
      | succ k =>
          rw [depth_of_one_lt node hlt] at hk
          rw [← levelAt_parents] at hp
          exact List.mem_append_right _ (ih k (by omega) hp)

/-- The pairs combined while folding `siblings` into `a`. -/
def foldPairs (node : α → α → α) : α → List α → List (α × α)
  | _, [] => []
  | a, s :: siblings => (a, s) :: foldPairs node (node a s) siblings

theorem mem_foldPairs (a : α) (before : List α) (s : α) (after : List α) :
    (before.foldl node a, s) ∈ foldPairs node a (before ++ s :: after) := by
  induction before generalizing a with
  | nil =>
      simp [foldPairs]
  | cons b before ih =>
      exact List.mem_cons_of_mem _ (ih (node a b))

/-- Walking down from the top: after undoing `m` steps of the fold, the value is a node of the
level `m` below the top.  One step: the value is a parent there, a parent combines two nodes of
the level below, and collision freedom identifies them with the two values just folded. -/
theorem mem_levelAt_of_foldl {leaves siblings : List α} {a : α}
    (hfree : CollisionFree node (treePairs node leaves ++ foldPairs node a siblings))
    (htop : top node leaves = [siblings.foldl node a]) :
    ∀ m, m ≤ siblings.length → m ≤ depth leaves →
      (siblings.take (siblings.length - m)).foldl node a ∈
        levelAt node leaves (depth leaves - m) := by
  intro m
  induction m with
  | zero =>
      intro _ _
      simp [levelAt_depth, htop]
  | succ m ih =>
      intro hlen hdepth
      have habove := ih (by omega) (by omega)
      have hindex : siblings.length - (m + 1) < siblings.length := by omega
      have hlength : siblings.length - m = siblings.length - (m + 1) + 1 := by omega
      have hlevel : depth leaves - m = depth leaves - (m + 1) + 1 := by omega
      rw [hlength, List.take_succ_eq_append_getElem hindex, List.foldl_append, List.foldl_cons,
        List.foldl_nil, hlevel, levelAt_succ] at habove
      -- `q` is the pair of the tree below that parent, the other pair comes from the fold
      rcases List.mem_map.1 habove with ⟨q, hq, hEq⟩
      have hqtree : q ∈ treePairs node leaves ++ foldPairs node a siblings :=
        List.mem_append_left _
          (pairs_levelAt_subset leaves (depth leaves - (m + 1)) (by omega) hq)
      have hfold : ((siblings.take (siblings.length - (m + 1))).foldl node a,
          siblings[siblings.length - (m + 1)]) ∈ foldPairs node a siblings := by
        have hmem : _ ∈ foldPairs node a _ := mem_foldPairs a (siblings.take (siblings.length - (m + 1)))
          siblings[siblings.length - (m + 1)] (siblings.drop (siblings.length - (m + 1) + 1))
        rwa [← List.drop_eq_getElem_cons hindex, List.take_append_drop] at hmem
      have hmembers := (hfree.mem_iff hqtree (List.mem_append_right _ hfold) hEq
        ((siblings.take (siblings.length - (m + 1))).foldl node a)).2 (Or.inl rfl)
      rcases mem_of_mem_pairs hq with ⟨hfst, hsnd⟩
      rcases hmembers with h | h
      · rw [h]
        exact hfst
      · rw [h]
        exact hsnd

/-- A fold that ends at the top passes, `depth` steps before its end, through a leaf; a shorter
fold starts from a node inside the tree. -/
theorem mem_level_of_foldl_eq_top {leaves siblings : List α} {a : α}
    (hfree : CollisionFree node (treePairs node leaves ++ foldPairs node a siblings))
    (htop : top node leaves = [siblings.foldl node a]) :
    (siblings.take (siblings.length - depth leaves)).foldl node a ∈
      levelAt node leaves (depth leaves - siblings.length) := by
  have hwalk := mem_levelAt_of_foldl hfree htop (min siblings.length (depth leaves))
    (Nat.min_le_left _ _) (Nat.min_le_right _ _)
  have hsteps : siblings.length - min siblings.length (depth leaves) =
      siblings.length - depth leaves := by omega
  have hlevel : depth leaves - min siblings.length (depth leaves) =
      depth leaves - siblings.length := by omega
  rwa [hsteps, hlevel] at hwalk

/-! ## Binding -/

theorem nodup_parents {level : List α} (hnodup : level.Nodup)
    (hfree : CollisionFree node (pairs level)) : (parents node level).Nodup := by
  induction level using pairs.induct with
  | case1 =>
      simp [parents, pairs]
  | case2 a =>
      simp [parents, pairs]
  | case3 a b rest ih =>
      have hab := List.nodup_cons.1 hnodup
      have hb := List.nodup_cons.1 hab.2
      have hrest : (parents node rest).Nodup :=
        ih hb.2 (hfree.mono (fun p hp => List.mem_cons_of_mem _ hp))
      -- a second parent `node a b` would have `a` among its children, further right
      have hnew : node a b ∉ parents node rest := by
        intro hmem
        rcases List.mem_map.1 hmem with ⟨q, hq, hEq⟩
        have hmembers := (hfree.mem_iff (p := (a, b)) (q := q) (by simp [pairs])
          (List.mem_cons_of_mem _ hq) hEq.symm a).1 (Or.inl rfl)
        rcases mem_of_mem_pairs hq with ⟨hfst, hsnd⟩
        have harest : a ∈ rest := by
          rcases hmembers with h | h
          · simpa [h] using hfst
          · simpa [h] using hsnd
        exact hab.1 (List.mem_cons_of_mem _ harest)
      simpa [parents, pairs] using List.nodup_cons.2 ⟨hnew, hrest⟩

/-- If the parents of one level are parents of another, so are the children. -/
theorem subset_of_parents_subset {l₁ l₂ : List α}
    (hfree : CollisionFree node (pairs l₁ ++ pairs l₂))
    (hsub : parents node l₁ ⊆ parents node l₂) : l₁ ⊆ l₂ := by
  intro a ha
  rcases exists_pair_of_mem ha with ⟨p, hp, hside⟩
  have hparent : node p.1 p.2 ∈ parents node l₂ := hsub (List.mem_map.2 ⟨p, hp, rfl⟩)
  rcases List.mem_map.1 hparent with ⟨q, hq, hEq⟩
  rcases mem_of_mem_pairs hq with ⟨hfst, hsnd⟩
  rcases (hfree.mem_iff (List.mem_append_left _ hp) (List.mem_append_right _ hq) hEq.symm a).1
    hside with h | h
  · rw [h]
    exact hfst
  · rw [h]
    exact hsnd

/-- The pairs of two trees contain those of their lowest levels ... -/
theorem pairs_append_subset {l₁ l₂ : List α} (h₁ : 1 < l₁.length) (h₂ : 1 < l₂.length) :
    pairs l₁ ++ pairs l₂ ⊆ treePairs node l₁ ++ treePairs node l₂ := by
  rw [treePairs_of_one_lt h₁, treePairs_of_one_lt h₂]
  refine List.append_subset.2 ⟨?_, ?_⟩
  · exact fun p hp => List.mem_append_left _ (List.mem_append_left _ hp)
  · exact fun p hp => List.mem_append_right _ (List.mem_append_left _ hp)

/-- ... and those of the trees above them. -/
theorem treePairs_parents_append_subset {l₁ l₂ : List α} (h₁ : 1 < l₁.length)
    (h₂ : 1 < l₂.length) :
    treePairs node (parents node l₁) ++ treePairs node (parents node l₂) ⊆
      treePairs node l₁ ++ treePairs node l₂ := by
  rw [treePairs_of_one_lt h₁, treePairs_of_one_lt h₂]
  refine List.append_subset.2 ⟨?_, ?_⟩
  · exact fun p hp => List.mem_append_left _ (List.mem_append_right _ hp)
  · exact fun p hp => List.mem_append_right _ (List.mem_append_right _ hp)

/-- Two duplicate-free lists of the same length with the same top are permutations of each other.
The induction goes up level by level, keeping both levels duplicate-free, and comes back down
through the children of equal parents. -/
theorem perm_of_top_eq (l₁ : List α) :
    ∀ l₂ : List α, l₁.length = l₂.length → l₁.Nodup → l₂.Nodup →
      CollisionFree node (treePairs node l₁ ++ treePairs node l₂) →
      top node l₁ = top node l₂ → l₁.Perm l₂ := by
  induction l₁ using level_induction node with
  | base l₁ hle =>
      intro l₂ hlen _ _ _ htop
      rw [top_of_le_one hle, top_of_le_one (hlen ▸ hle)] at htop
      rw [htop]
  | up l₁ hlt ih =>
      intro l₂ hlen hnodup₁ hnodup₂ hfree htop
      have hlt₂ : 1 < l₂.length := hlen ▸ hlt
      rw [top_of_one_lt hlt, top_of_one_lt hlt₂] at htop
      have hfreePairs : CollisionFree node (pairs l₁ ++ pairs l₂) :=
        hfree.mono (pairs_append_subset hlt hlt₂)
      have hfreeSwap : CollisionFree node (pairs l₂ ++ pairs l₁) :=
        hfreePairs.mono List.perm_append_comm.subset
      -- up: the parents are duplicate-free again, so the induction hypothesis is about them
      have hnodupUp₁ : (parents node l₁).Nodup :=
        nodup_parents hnodup₁ (hfreePairs.mono (List.subset_append_left _ _))
      have hnodupUp₂ : (parents node l₂).Nodup :=
        nodup_parents hnodup₂ (hfreeSwap.mono (List.subset_append_left _ _))
      have hparents : (parents node l₁).Perm (parents node l₂) :=
        ih (parents node l₂) (by simp [hlen]) hnodupUp₁ hnodupUp₂
          (hfree.mono (treePairs_parents_append_subset hlt hlt₂)) htop
      -- down: equal parents have equal children
      refine (List.perm_ext_iff_of_nodup hnodup₁ hnodup₂).2 ?_
      intro a
      exact ⟨fun ha => subset_of_parents_subset hfreePairs hparents.subset ha,
        fun ha => subset_of_parents_subset hfreeSwap hparents.symm.subset ha⟩

end PairTree
end PaymentRail
