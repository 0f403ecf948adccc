import Mathlib.Data.Char
import Mathlib.Data.List.Lex
import PaymentRail.Machine.Except
import PaymentRail.Strings.Numeral
import PaymentRail.Trees.PairTree

/-!
# Merkle — the tree over receipt hashes

This module embeds `receipts/merkle.util.ts`: leaves are the receipt hashes of a batch, a parent
is the hash of its sorted pair of children, and the last node of an odd level is paired with
itself.  `keccak256` comes from a library and is a parameter: any function from byte strings to
32-byte values, which are printed in lower-case hex.

* `merkleProof_complete`: a proof built for a leaf is accepted, in any letter case;
* `merkleRoot_binds`: the root determines the receipts of the batch;
* `verifyMerkleProof_sound`: what an accepted proof says about its leaf.
-/

namespace PaymentRail
namespace Receipts

open Machine Strings PairTree

/-- `keccak256` on byte strings. -/
abbrev Keccak := List UInt8 → Fin (2 ^ 256)

/-! ## The functions of the source -/

/-- `HASH_PATTERN` -/
def hashPattern (s : Text) : Bool := hexPattern 64 s

/-- The bytes a text of hex digits stands for. -/
def bytesOfHex : Text → List UInt8
  | a :: b :: rest => UInt8.ofNat (16 * digitVal a + digitVal b) :: bytesOfHex rest
  | _ => []

/-- `ethers.getBytes` of a `0x`-prefixed hex string. -/
def getBytes (s : Text) : List UInt8 := bytesOfHex (s.drop 2)

/-- `ethers.ZeroHash` -/
def zeroHash : Text := hexWord 0

variable (keccak : Keccak)

def hashPair (a b : Text) : Text :=
  -- the pair is sorted as strings, so a proof needs no left and right marks
  let (lo, hi) := if a < b then (a, b) else (b, a)
  hexWord (keccak (getBytes lo ++ getBytes hi))

def normalise (leaves : List Text) : Except String (List Text) :=
  leaves.mapM fun leaf => do
    require (hashPattern leaf = true) "Merkle leaf must be a 0x-prefixed 32-byte hex string"
    return toLowerCase leaf

def parentLevel (level : List Text) : List Text := parents (hashPair keccak) level

def merkleRoot (leaves : List Text) : Except String Text :=
  if leaves.length = 0 then
    .ok zeroHash
  else do
    let level ← normalise leaves
    -- `while (level.length > 1)`, then `level[0]`
    return (top (hashPair keccak) level).getD 0 []

/-- Siblings from the leaf level up to, but not including, the root. -/
def merkleProof (leaves : List Text) (index : Int) : Except String (List Text) := do
  require (0 ≤ index ∧ index < leaves.length)
    ("Leaf index " ++ toString index ++ " is outside the batch of " ++ toString leaves.length)
  let level ← normalise leaves
  return path (hashPair keccak) [] level index.toNat

def verifyMerkleProof (leaf : Text) (proof : List Text) (root : Text) : Bool :=
  if hashPattern leaf = false ∨ hashPattern root = false then
    false
  else if proof.any (fun sibling => !hashPattern sibling) then
    false
  else
    -- neither the number of leaves nor the length of the proof is checked
    proof.foldl (fun node sibling => hashPair keccak node (toLowerCase sibling))
      (toLowerCase leaf) == toLowerCase root

/-! ## Facts about single functions -/

variable {keccak}

theorem hashPair_comm (a b : Text) : hashPair keccak a b = hashPair keccak b a := by
  rcases lt_trichotomy a b with h | h | h
  · have hnot : ¬ b < a := not_lt_of_gt h
    simp [hashPair, h, hnot]
  · rw [h]
  · have hnot : ¬ a < b := not_lt_of_gt h
    simp [hashPair, h, hnot]

/-- A 32-byte hash in the spelling `normalise` gives it. -/
def LowerHash (s : Text) : Prop := hashPattern s = true ∧ toLowerCase s = s

theorem lowerHash_hexWord (w : Fin (2 ^ 256)) : LowerHash (hexWord w) :=
  ⟨hexPattern_hexWord w.isLt, toLowerCase_hexWord w⟩

theorem lowerHash_hashPair (a b : Text) : LowerHash (hashPair keccak a b) :=
  lowerHash_hexWord _

theorem lowerHash_toLowerCase {s : Text} (h : hashPattern s = true) : LowerHash (toLowerCase s) :=
  ⟨hexPattern_toLowerCase h, toLowerCase_toLowerCase h⟩

/-- `normalise` lower-cases a list of hashes, and throws on anything else. -/
theorem normalise_eq_ok {leaves level : List Text} :
    normalise leaves = .ok level ↔
      (∀ leaf ∈ leaves, hashPattern leaf = true) ∧ level = leaves.map toLowerCase := by
  have hround : ∀ leaf lower : Text,
      (do
        require (hashPattern leaf = true) "Merkle leaf must be a 0x-prefixed 32-byte hex string"
        return toLowerCase leaf : Except String Text) = .ok lower ↔
        hashPattern leaf = true ∧ toLowerCase leaf = lower := by
    intro leaf lower
    simp only [bind_eq_ok, require_eq_ok, pure_eq_ok, exists_const]
  unfold normalise
  simp only [mapM_eq_ok, hround]
  constructor
  · intro h
    induction h with
    | nil =>
        simp
    | cons hhead _ ih =>
        rcases ih with ⟨hrest, hlevel⟩
        exact ⟨by simpa [hhead.1] using hrest, by simp [hhead.2, hlevel]⟩
  · rintro ⟨hleaves, rfl⟩
    refine List.forall₂_map_right_iff.2 (List.forall₂_same.2 ?_)
    intro leaf hleaf
    exact ⟨hleaves leaf hleaf, rfl⟩

/-- On a non-empty list of hashes the root is the node at the top of the tree. -/
theorem merkleRoot_eq_ok {leaves : List Text} {root : Text}
    (hleaves : ∀ leaf ∈ leaves, hashPattern leaf = true) (hne : leaves ≠ []) :
    merkleRoot keccak leaves = .ok root ↔
      top (hashPair keccak) (leaves.map toLowerCase) = [root] := by
  have hlen : leaves.length ≠ 0 := by simpa using hne
  have hnorm : normalise leaves = .ok (leaves.map toLowerCase) :=
    normalise_eq_ok.2 ⟨hleaves, rfl⟩
  have hmap : leaves.map toLowerCase ≠ [] := by simpa using hne
  have hone : (top (hashPair keccak) (leaves.map toLowerCase)).length = 1 := length_top hmap
  rcases List.length_eq_one_iff.1 hone with ⟨r, hr⟩
  simp [merkleRoot, hlen, hnorm, hr, bind, Except.bind]

theorem merkleRoot_isOk (keccak : Keccak) {leaves : List Text}
    (hleaves : ∀ leaf ∈ leaves, hashPattern leaf = true) :
    ∃ root, merkleRoot keccak leaves = .ok root := by
  by_cases hne : leaves = []
  · exact ⟨zeroHash, by simp [merkleRoot, hne]⟩
  · have hmap : leaves.map toLowerCase ≠ [] := by simpa using hne
    have hone : (top (hashPair keccak) (leaves.map toLowerCase)).length = 1 := length_top hmap
    rcases List.length_eq_one_iff.1 hone with ⟨root, hroot⟩
    exact ⟨root, (merkleRoot_eq_ok hleaves hne).2 hroot⟩

/-- The letter case of the leaves does not matter. -/
theorem merkleRoot_map_toLowerCase (keccak : Keccak) {leaves : List Text}
    (hleaves : ∀ leaf ∈ leaves, hashPattern leaf = true) :
    merkleRoot keccak (leaves.map toLowerCase) = merkleRoot keccak leaves := by
  have hlower : ∀ leaf ∈ leaves.map toLowerCase, hashPattern leaf = true := by
    intro leaf hleaf
    rcases List.mem_map.1 hleaf with ⟨s, hs, rfl⟩
    exact (lowerHash_toLowerCase (hleaves s hs)).1
  have htwice : (leaves.map toLowerCase).map toLowerCase = leaves.map toLowerCase := by
    rw [List.map_map]
    exact List.map_congr_left (fun s hs => (lowerHash_toLowerCase (hleaves s hs)).2)
  have hnorm : normalise leaves = .ok (leaves.map toLowerCase) :=
    normalise_eq_ok.2 ⟨hleaves, rfl⟩
  have hnorm' : normalise (leaves.map toLowerCase) = .ok (leaves.map toLowerCase) :=
    normalise_eq_ok.2 ⟨hlower, htwice.symm⟩
  simp [merkleRoot, hnorm, hnorm']

theorem length_bytesOfHex (s : Text) : (bytesOfHex s).length = s.length / 2 := by
  induction s using bytesOfHex.induct with
  | case1 a b rest ih =>
      simp [bytesOfHex, ih]
      omega
  | case2 s h =>
      match s, h with
      | [], _ => rfl
      | [_], _ => simp [bytesOfHex]
      | a :: b :: rest, h => exact absurd rfl (h a b rest)

theorem merkleProof_eq_ok {leaves : List Text} {i : Nat}
    (hleaves : ∀ leaf ∈ leaves, hashPattern leaf = true) (hi : i < leaves.length) :
    merkleProof keccak leaves i =
      .ok (path (hashPair keccak) [] (leaves.map toLowerCase) i) := by
  have hnorm : normalise leaves = .ok (leaves.map toLowerCase) :=
    normalise_eq_ok.2 ⟨hleaves, rfl⟩
  have hrange : (0 : Int) ≤ (i : Int) ∧ (i : Int) < (leaves.length : Int) := by omega
  simp [merkleProof, require, hrange, hnorm, bind, Except.bind]

/-- The verifier accepts exactly the folds that end at the root. -/
theorem verifyMerkleProof_iff {leaf : Text} {proof : List Text} {root : Text} :
    verifyMerkleProof keccak leaf proof root = true ↔
      hashPattern leaf = true ∧ hashPattern root = true ∧
        (∀ sibling ∈ proof, hashPattern sibling = true) ∧
        (proof.map toLowerCase).foldl (hashPair keccak) (toLowerCase leaf) = toLowerCase root := by
  unfold verifyMerkleProof
  -- the two guards of the source, one after the other
  by_cases hshape : hashPattern leaf = false ∨ hashPattern root = false
  · rw [if_pos hshape]
    constructor
    · intro h
      cases h
    · rintro ⟨hleaf, hroot, _⟩
      rcases hshape with h | h
      · rw [hleaf] at h
        cases h
      · rw [hroot] at h
        cases h
  · rw [if_neg hshape]
    have hleaf : hashPattern leaf = true := by
      simpa using (not_or.1 hshape).1
    have hroot : hashPattern root = true := by
      simpa using (not_or.1 hshape).2
    by_cases hproof : ∀ sibling ∈ proof, hashPattern sibling = true
    · have hany : (proof.any fun sibling => !hashPattern sibling) = false := by
        simpa using hproof
      simp [hany, hleaf, hroot, List.foldl_map]
      intro _
      exact hproof
    · have hany : (proof.any fun sibling => !hashPattern sibling) = true := by
        simpa using hproof
      simp only [hany, if_true]
      constructor
      · intro h
        cases h
      · rintro ⟨_, _, hall, _⟩
        exact absurd hall hproof

/-! ## Completeness -/

/-- The same 32-byte hash, its hex digits in any letter case. -/
def Recased (s t : Text) : Prop := hashPattern t = true ∧ toLowerCase t = toLowerCase s

theorem Recased.refl {s : Text} (h : hashPattern s = true) : Recased s s := ⟨h, rfl⟩

theorem map_toLowerCase_of_recased {l l' : List Text} (h : List.Forall₂ Recased l l') :
    l'.map toLowerCase = l.map toLowerCase := by
  induction h with
  | nil =>
      rfl
  | cons hhead _ ih =>
      simp [hhead.2, ih]

theorem hashPattern_of_recased {l l' : List Text} (h : List.Forall₂ Recased l l') :
    ∀ s ∈ l', hashPattern s = true := by
  induction h with
  | nil =>
      simp
  | cons hhead _ ih =>
      simpa [hhead.1] using ih

theorem forall₂_recased_refl {l : List Text} (h : ∀ s ∈ l, hashPattern s = true) :
    List.Forall₂ Recased l l := by
  induction l with
  | nil =>
      exact .nil
  | cons s l ih =>
      exact .cons (Recased.refl (h s (by simp))) (ih (fun t ht => h t (by simp [ht])))

/-- The siblings above a leaf lead to the root, and all of them are hashes in lower case. -/
theorem path_leads_to_top (keccak : Keccak) {leaves : List Text}
    (hleaves : ∀ leaf ∈ leaves, hashPattern leaf = true) {i : Nat} (hi : i < leaves.length) :
    ∃ root, top (hashPair keccak) (leaves.map toLowerCase) = [root] ∧ LowerHash root ∧
      (∀ s ∈ path (hashPair keccak) [] (leaves.map toLowerCase) i, LowerHash s) ∧
      (path (hashPair keccak) [] (leaves.map toLowerCase) i).foldl (hashPair keccak)
        (toLowerCase leaves[i]) = root := by
  set level := leaves.map toLowerCase with hlevel
  have hlen : i < level.length := by simpa [hlevel] using hi
  have hlower : ∀ s ∈ level, LowerHash s := by
    intro s hs
    rcases List.mem_map.1 hs with ⟨leaf, hleaf, rfl⟩
    exact lowerHash_toLowerCase (hleaves leaf hleaf)
  have hnode : ∀ a b, LowerHash a → LowerHash b → LowerHash (hashPair keccak a b) :=
    fun a b _ _ => lowerHash_hashPair a b
  have hgetD : level.getD i [] = toLowerCase leaves[i] := by
    rw [List.getD_eq_getElem _ _ hlen]
    simp [hlevel]
  have htop : top (hashPair keccak) level =
      [(path (hashPair keccak) [] level i).foldl (hashPair keccak) (toLowerCase leaves[i])] := by
    have hcomm : ∀ a b, hashPair keccak a b = hashPair keccak b a := hashPair_comm
    have hfold := top_eq_foldl_path hcomm (d := []) level i hlen
    rw [hgetD] at hfold
    exact hfold
  exact ⟨_, htop, forall_mem_top hnode hlower _ (by simp [htop]), forall_mem_path hnode hlower i hlen,
    rfl⟩

/-- A proof that leads to the root is accepted in every letter case. -/
theorem verifyMerkleProof_of_recased {leaf root : Text} {proof : List Text}
    (hproof : ∀ s ∈ proof, LowerHash s) (hroot : LowerHash root)
    (hfold : proof.foldl (hashPair keccak) (toLowerCase leaf) = root) {leaf' root' : Text}
    {proof' : List Text} (hleaf' : Recased leaf leaf') (hproof' : List.Forall₂ Recased proof proof')
    (hroot' : Recased root root') : verifyMerkleProof keccak leaf' proof' root' = true := by
  refine verifyMerkleProof_iff.2 ⟨hleaf'.1, hroot'.1, hashPattern_of_recased hproof', ?_⟩
  have hsiblings : proof'.map toLowerCase = proof := by
    have hid : proof.map toLowerCase = proof.map id :=
      List.map_congr_left (fun s hs => (hproof s hs).2)
    simpa [map_toLowerCase_of_recased hproof'] using hid
  rw [hsiblings, hleaf'.2, hroot'.2, hroot.2, hfold]

/-- The proof of a leaf is accepted as it is. -/
theorem merkleProof_accepted (keccak : Keccak) {leaves : List Text}
    (hleaves : ∀ leaf ∈ leaves, hashPattern leaf = true) {i : Nat} (hi : i < leaves.length) :
    ∃ proof root, merkleProof keccak leaves i = .ok proof ∧
      merkleRoot keccak leaves = .ok root ∧
      verifyMerkleProof keccak leaves[i] proof root = true := by
  have hne : leaves ≠ [] := List.ne_nil_of_length_pos (Nat.zero_lt_of_lt hi)
  rcases path_leads_to_top keccak hleaves hi with ⟨root, htop, hroot, hproof, hfold⟩
  refine ⟨_, root, merkleProof_eq_ok hleaves hi, (merkleRoot_eq_ok hleaves hne).2 htop, ?_⟩
  exact verifyMerkleProof_of_recased hproof hroot hfold
    (Recased.refl (hleaves _ (List.getElem_mem hi)))
    (forall₂_recased_refl (fun s hs => (hproof s hs).1)) (Recased.refl hroot.1)

/-- Every leaf of a batch is proved: the proof exists, has one sibling per level, and is accepted
in every letter case of leaf, siblings and root. -/
theorem merkleProof_complete (keccak : Keccak) (leaves : List Text)
    (hleaves : ∀ leaf ∈ leaves, hashPattern leaf = true) (i : Nat) (hi : i < leaves.length) :
    ∃ proof root, merkleProof keccak leaves i = .ok proof ∧
      merkleRoot keccak leaves = .ok root ∧
      proof.length = Nat.clog 2 leaves.length ∧
      verifyMerkleProof keccak leaves[i] proof root = true ∧
      ∀ leaf' proof' root', Recased leaves[i] leaf' → List.Forall₂ Recased proof proof' →
        Recased root root' → verifyMerkleProof keccak leaf' proof' root' = true := by
  have hne : leaves ≠ [] := List.ne_nil_of_length_pos (Nat.zero_lt_of_lt hi)
  rcases path_leads_to_top keccak hleaves hi with ⟨root, htop, hroot, hproof, hfold⟩
  set proof := path (hashPair keccak) [] (leaves.map toLowerCase) i with hpath
  -- the general case first: the plain one is the re-casing that changes nothing
  have haccept : ∀ leaf' proof' root', Recased leaves[i] leaf' → List.Forall₂ Recased proof proof' →
      Recased root root' → verifyMerkleProof keccak leaf' proof' root' = true :=
    fun leaf' proof' root' hleaf' hproof' hroot' =>
      verifyMerkleProof_of_recased hproof hroot hfold hleaf' hproof' hroot'
  refine ⟨proof, root, merkleProof_eq_ok hleaves hi, (merkleRoot_eq_ok hleaves hne).2 htop, ?_, ?_,
    haccept⟩
  · have hdepth : proof.length = depth (leaves.map toLowerCase) := length_path _ i
    simpa [depth] using hdepth
  · exact haccept _ _ _ (Recased.refl (hleaves _ (List.getElem_mem hi)))
      (forall₂_recased_refl (fun s hs => (hproof s hs).1)) (Recased.refl hroot.1)

/-- Digests of the pairs met in a batch of three receipts, `0xAA..`, `0x22..` and `0x33..`. -/
def sampleLeft : Fin (2 ^ 256) :=
  0xf6e5cb35053c4c246d3d1a20c32e632be1a1cbf394e36f0de13b30b3cea8e167

def sampleRight : Fin (2 ^ 256) :=
  0x97760f7a12f484893911ae4c183671cd69c7f9a760f9f1c59393df69e893e557

def sampleRoot : Fin (2 ^ 256) :=
  0x58ecf161ce52f904ec61f636ef82a3b372e609696f7d097c9a084afad7e55c37

/-- `keccak256` on those pairs. -/
def sampleKeccak : Keccak := fun bytes =>
  if bytes = List.replicate 32 0x22 ++ List.replicate 32 0xaa then sampleLeft
  else if bytes = List.replicate 32 0x33 ++ List.replicate 32 0x33 then sampleRight
  else if bytes = getBytes (hexWord sampleRight) ++ getBytes (hexWord sampleLeft) then sampleRoot
  else 0

/-- A hash made of one repeated digit. -/
def sampleHash (digit : Char) : Text := '0' :: 'x' :: List.replicate 64 digit

def sampleBatch : List Text := [sampleHash 'A', sampleHash '2', sampleHash '3']

theorem merkleProof_complete_sampleBatch :
    (∀ leaf ∈ sampleBatch, hashPattern leaf = true) ∧ 2 < sampleBatch.length ∧
      ∃ proof root, merkleProof sampleKeccak sampleBatch (2 : Nat) = .ok proof ∧
        merkleRoot sampleKeccak sampleBatch = .ok root ∧
        proof.length = Nat.clog 2 sampleBatch.length ∧
        verifyMerkleProof sampleKeccak (sampleHash '3') proof root = true ∧
        ∀ leaf' proof' root', Recased (sampleHash '3') leaf' → List.Forall₂ Recased proof proof' →
          Recased root root' → verifyMerkleProof sampleKeccak leaf' proof' root' = true :=
  ⟨by decide, by decide,
    merkleProof_complete sampleKeccak sampleBatch (by decide) 2 (by decide)⟩

/-! ## Binding -/

/-- The root commits to the batch: two batches of the same size, each of distinct receipts, with
the same root hold the same receipts.  Hashes are compared as 32-byte values, that is, without
regard to letter case. -/
theorem merkleRoot_binds (keccak : Keccak) (l₁ l₂ : List Text)
    (hleaves₁ : ∀ leaf ∈ l₁, hashPattern leaf = true)
    (hleaves₂ : ∀ leaf ∈ l₂, hashPattern leaf = true)
    (hdistinct₁ : (l₁.map toLowerCase).Nodup) (hdistinct₂ : (l₂.map toLowerCase).Nodup)
    (hlength : l₁.length = l₂.length)
    (hfree : CollisionFree (hashPair keccak)
      (treePairs (hashPair keccak) (l₁.map toLowerCase) ++
        treePairs (hashPair keccak) (l₂.map toLowerCase)))
    (hroot : merkleRoot keccak l₁ = merkleRoot keccak l₂) :
    (l₁.map toLowerCase).Perm (l₂.map toLowerCase) := by
  -- the empty batch has the zero hash as its root, not a node of a tree
  by_cases hempty : l₁ = []
  · have hempty₂ : l₂ = [] := by
      simpa [hempty] using hlength.symm
    simp [hempty, hempty₂]
  · have hempty₂ : l₂ ≠ [] := by
      intro hnil
      exact hempty (by simpa [hnil] using hlength)
    have hmap₁ : l₁.map toLowerCase ≠ [] := by simpa using hempty
    have hone : (top (hashPair keccak) (l₁.map toLowerCase)).length = 1 := length_top hmap₁
    rcases List.length_eq_one_iff.1 hone with ⟨r, htop₁⟩
    have hr₁ : merkleRoot keccak l₁ = .ok r := (merkleRoot_eq_ok hleaves₁ hempty).2 htop₁
    have htop₂ : top (hashPair keccak) (l₂.map toLowerCase) = [r] :=
      (merkleRoot_eq_ok hleaves₂ hempty₂).1 (hroot.symm.trans hr₁)
    exact perm_of_top_eq (l₁.map toLowerCase) (l₂.map toLowerCase) (by simp [hlength])
      hdistinct₁ hdistinct₂ hfree (htop₁.trans htop₂.symm)

/-- A tree of three leaves, written out. -/
theorem top_triple (node : Text → Text → Text) (a b c : Text) :
    top node [a, b, c] = [node (node a b) (node c c)] := by
  simp [top, parents, pairs]

theorem treePairs_triple (node : Text → Text → Text) (a b c : Text) :
    treePairs node [a, b, c] = [(a, b), (c, c), (node a b, node c c)] := by
  simp [treePairs, parents, pairs]

theorem sample_nodes :
    hashPair sampleKeccak (sampleHash 'a') (sampleHash '2') = hexWord sampleLeft ∧
      hashPair sampleKeccak (sampleHash '3') (sampleHash '3') = hexWord sampleRight ∧
      hashPair sampleKeccak (hexWord sampleLeft) (hexWord sampleRight) = hexWord sampleRoot := by
  decide +kernel

theorem sample_treePairs :
    treePairs (hashPair sampleKeccak) (sampleBatch.map toLowerCase) =
      [(sampleHash 'a', sampleHash '2'), (sampleHash '3', sampleHash '3'),
        (hexWord sampleLeft, hexWord sampleRight)] := by
  have hlower : sampleBatch.map toLowerCase = [sampleHash 'a', sampleHash '2', sampleHash '3'] := by
    decide
  rw [hlower, treePairs_triple, sample_nodes.1, sample_nodes.2.1]

theorem sample_root : merkleRoot sampleKeccak sampleBatch = .ok (hexWord sampleRoot) := by
  have hlower : sampleBatch.map toLowerCase = [sampleHash 'a', sampleHash '2', sampleHash '3'] := by
    decide
  refine (merkleRoot_eq_ok (by decide) (by decide)).2 ?_
  rw [hlower, top_triple, sample_nodes.1, sample_nodes.2.1, sample_nodes.2.2]

/-- The batch with its first two receipts exchanged. -/
def exchangedBatch : List Text := [sampleHash '2', sampleHash 'a', sampleHash '3']

theorem merkleRoot_binds_exchangedBatch :
    merkleRoot sampleKeccak sampleBatch = merkleRoot sampleKeccak exchangedBatch ∧
      (sampleBatch.map toLowerCase).Perm (exchangedBatch.map toLowerCase) := by
  have hlower : exchangedBatch.map toLowerCase =
      [sampleHash '2', sampleHash 'a', sampleHash '3'] := by decide
  have hleft : hashPair sampleKeccak (sampleHash '2') (sampleHash 'a') = hexWord sampleLeft := by
    rw [hashPair_comm, sample_nodes.1]
  have hpairs : treePairs (hashPair sampleKeccak) (exchangedBatch.map toLowerCase) =
      [(sampleHash '2', sampleHash 'a'), (sampleHash '3', sampleHash '3'),
        (hexWord sampleLeft, hexWord sampleRight)] := by
    rw [hlower, treePairs_triple, hleft, sample_nodes.2.1]
  have hroot : merkleRoot sampleKeccak exchangedBatch = .ok (hexWord sampleRoot) := by
    refine (merkleRoot_eq_ok (by decide) (by decide)).2 ?_
    rw [hlower, top_triple, hleft, sample_nodes.2.1, sample_nodes.2.2]
  have hfree : CollisionFree (hashPair sampleKeccak)
      (treePairs (hashPair sampleKeccak) (sampleBatch.map toLowerCase) ++
        treePairs (hashPair sampleKeccak) (exchangedBatch.map toLowerCase)) := by
    rw [sample_treePairs, hpairs]
    decide +kernel
  refine ⟨sample_root.trans hroot.symm, ?_⟩
  exact merkleRoot_binds sampleKeccak sampleBatch exchangedBatch (by decide) (by decide)
    (by decide) (by decide) (by decide) hfree (sample_root.trans hroot.symm)

/-! ## Soundness -/

/-- What an accepted proof says.  The verifier does not know the size of the batch, and leaves are
used as they are, so the length of the proof decides at which height of the tree the candidate
stands: with one sibling per level it is a receipt of the batch, a shorter proof starts from a node
inside the tree, and a longer one reaches a receipt after its surplus steps. -/
theorem verifyMerkleProof_sound (keccak : Keccak) (batch : List Text) (candidate : Text)
    (proof : List Text) (root : Text) (hne : batch ≠ [])
    (hbatch : ∀ leaf ∈ batch, hashPattern leaf = true)
    (hroot : merkleRoot keccak batch = .ok root)
    (hfree : CollisionFree (hashPair keccak)
      (treePairs (hashPair keccak) (batch.map toLowerCase) ++
        foldPairs (hashPair keccak) (toLowerCase candidate) (proof.map toLowerCase)))
    (hverify : verifyMerkleProof keccak candidate proof root = true) :
    ((proof.map toLowerCase).take (proof.length - Nat.clog 2 batch.length)).foldl
        (hashPair keccak) (toLowerCase candidate) ∈
      levelAt (hashPair keccak) (batch.map toLowerCase)
        (Nat.clog 2 batch.length - proof.length) ∧
    (proof.length = Nat.clog 2 batch.length → toLowerCase candidate ∈ batch.map toLowerCase) := by
  rcases verifyMerkleProof_iff.1 hverify with ⟨_, _, _, hfold⟩
  have htop := (merkleRoot_eq_ok hbatch hne).1 hroot
  have hlower : ∀ s ∈ batch.map toLowerCase, LowerHash s := by
    intro s hs
    rcases List.mem_map.1 hs with ⟨leaf, hleaf, rfl⟩
    exact lowerHash_toLowerCase (hbatch leaf hleaf)
  have hnode : ∀ a b, LowerHash a → LowerHash b → LowerHash (hashPair keccak a b) :=
    fun a b _ _ => lowerHash_hashPair a b
  -- `root` came from `merkleRoot`, so comparing it in lower case changes nothing
  have hrootLower : LowerHash root := forall_mem_top hnode hlower root (by simp [htop])
  have htop' : top (hashPair keccak) (batch.map toLowerCase) =
      [(proof.map toLowerCase).foldl (hashPair keccak) (toLowerCase candidate)] := by
    rw [htop, hfold, hrootLower.2]
  have hwalk := mem_level_of_foldl_eq_top hfree htop'
  simp only [depth, List.length_map] at hwalk
  refine ⟨hwalk, ?_⟩
  intro hlen
  rw [hlen, Nat.sub_self, List.take_zero, List.foldl_nil] at hwalk
  exact hwalk

/-- The pairs hashed for a candidate with two siblings, next to those of the sample batch. -/
theorem sample_collisionFree :
    CollisionFree (hashPair sampleKeccak)
      (treePairs (hashPair sampleKeccak) (sampleBatch.map toLowerCase) ++
        foldPairs (hashPair sampleKeccak) (toLowerCase (sampleHash 'A'))
          ([sampleHash '2', hexWord sampleRight].map toLowerCase)) := by
  rw [sample_treePairs]
  decide +kernel

theorem verifyMerkleProof_sound_sampleBatch :
    verifyMerkleProof sampleKeccak (sampleHash 'A') [sampleHash '2', hexWord sampleRight]
        (hexWord sampleRoot) = true ∧
      toLowerCase (sampleHash 'A') ∈ sampleBatch.map toLowerCase := by
  have hverify : verifyMerkleProof sampleKeccak (sampleHash 'A')
      [sampleHash '2', hexWord sampleRight] (hexWord sampleRoot) = true := by decide +kernel
  have hlength : ([sampleHash '2', hexWord sampleRight] : List Text).length =
      Nat.clog 2 sampleBatch.length := by decide
  exact ⟨hverify,
    (verifyMerkleProof_sound sampleKeccak sampleBatch (sampleHash 'A')
      [sampleHash '2', hexWord sampleRight] (hexWord sampleRoot) (by decide) (by decide)
      sample_root sample_collisionFree hverify).2 hlength⟩

/-- A node inside the tree is accepted as if it were a receipt: its sibling alone proves it. -/
theorem innerNode_accepted :
    merkleRoot sampleKeccak sampleBatch = .ok (hexWord sampleRoot) ∧
      CollisionFree (hashPair sampleKeccak)
        (treePairs (hashPair sampleKeccak) (sampleBatch.map toLowerCase) ++
          foldPairs (hashPair sampleKeccak) (toLowerCase (hexWord sampleLeft))
            ([hexWord sampleRight].map toLowerCase)) ∧
      verifyMerkleProof sampleKeccak (hexWord sampleLeft) [hexWord sampleRight]
        (hexWord sampleRoot) = true ∧
      toLowerCase (hexWord sampleLeft) ∉ sampleBatch.map toLowerCase := by
  refine ⟨sample_root, ?_, by decide +kernel, by decide +kernel⟩
  rw [sample_treePairs]
  decide +kernel

end Receipts
end PaymentRail
