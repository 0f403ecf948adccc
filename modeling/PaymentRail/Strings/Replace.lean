import Mathlib.Data.List.Basic
import Mathlib.Data.List.Infix

/-!
# Replace — global replacement, and what it puts together

`replaceAll p new` replaces every match of a pattern from left to right, once.  A text is read as a
sequence of `Piece`s: characters that are kept, and matches that are taken out.

Where a match is taken out, what is left before it and behind it comes together.  A text `z` may then
stand in the result because it stood in the text before, or because it was put together (`Joins`):

- `has_removed_iff` : for texts that no match can overlap
- `has_own_iff` : for the matches themselves
-/

namespace PaymentRail
namespace Strings
namespace Replace

variable {α : Type}

/-! ## Patterns -/

/-- A pattern is given by the length of the match that begins at the head of a text, zero where there
is none.  What stands behind a match does not matter. -/
structure Pattern (α : Type) where
  length : List α → Nat
  length_le : ∀ u, length u ≤ u.length
  within : ∀ u, length (u.take (length u)) = length u
  stable : ∀ z rest, length z = z.length → z ≠ [] → length (z ++ rest) = z.length

/-- A text that matches as a whole. -/
def Pattern.Matches (p : Pattern α) (z : List α) : Prop := z ≠ [] ∧ p.length z = z.length

/-- A pattern by the texts that match it: none of them is empty, a match is found where one of them
stands, whatever follows, and nowhere else. -/
def Pattern.of (length : List α → Nat) (L : List α → Prop)
    (hfound : ∀ u, 0 < length u → ∃ z rest, u = z ++ rest ∧ length u = z.length ∧ L z)
    (hfind : ∀ z rest, L z → length (z ++ rest) = z.length) (hne : ∀ z, L z → z ≠ []) : Pattern α where
  length := length
  length_le := by
    intro u
    rcases Nat.eq_zero_or_pos (length u) with hzero | hpos
    · rw [hzero]
      exact Nat.zero_le _
    · rcases hfound u hpos with ⟨z, rest, rfl, hlength, _⟩
      rw [hlength, List.length_append]
      exact Nat.le_add_right _ _
  within := by
    intro u
    rcases Nat.eq_zero_or_pos (length u) with hzero | hpos
    · rw [hzero, List.take_zero]
      by_contra hnil
      rcases hfound [] (Nat.pos_of_ne_zero hnil) with ⟨z, rest, hsplit, _, hz⟩
      exact hne z hz (List.append_eq_nil_iff.1 hsplit.symm).1
    · rcases hfound u hpos with ⟨z, rest, rfl, hlength, hz⟩
      rw [hlength, List.take_left]
      have hself := hfind z [] hz
      rwa [List.append_nil] at hself
  stable := by
    intro z rest hlength hz
    have hpos : 0 < length z := by
      rw [hlength]
      exact List.length_pos_iff.2 hz
    -- what is found in `z` has its length, so it is the whole of `z`
    rcases hfound z hpos with ⟨z', rest', rfl, hlength', hL⟩
    have hnil : rest' = [] := by
      rw [hlength, List.length_append] at hlength'
      exact List.length_eq_zero_iff.1 (by omega)
    subst hnil
    rw [List.append_nil]
    exact hfind z' rest hL

theorem Pattern.matches_of {length : List α → Nat} {L : List α → Prop}
    {hfound : ∀ u, 0 < length u → ∃ z rest, u = z ++ rest ∧ length u = z.length ∧ L z}
    {hfind : ∀ z rest, L z → length (z ++ rest) = z.length} {hne : ∀ z, L z → z ≠ []} {z : List α} :
    (Pattern.of length L hfound hfind hne).Matches z ↔ L z := by
  constructor
  · rintro ⟨hz, hlength⟩
    have hpos : 0 < length z := by
      rw [show length z = z.length from hlength]
      exact List.length_pos_iff.2 hz
    rcases hfound z hpos with ⟨z', rest', rfl, hlength', hL⟩
    have htotal : length (z' ++ rest') = (z' ++ rest').length := hlength
    have hnil : rest' = [] := by
      rw [htotal, List.length_append] at hlength'
      exact List.length_eq_zero_iff.1 (by omega)
    rwa [hnil, List.append_nil]
  · intro hL
    refine ⟨hne z hL, ?_⟩
    have hself := hfind z [] hL
    rwa [List.append_nil] at hself

/-- One of the texts `Y` stands somewhere in a text. -/
def Has (Y : List α → Prop) (u : List α) : Prop := ∃ z, Y z ∧ z <:+: u

theorem Has.of_within {Y : List α → Prop} {u v : List α} (h : Has Y u) (huv : u <:+: v) : Has Y v := by
  rcases h with ⟨z, hz, hinfix⟩
  exact ⟨z, hz, hinfix.trans huv⟩

theorem matches_take {p : Pattern α} {u : List α} (h : 0 < p.length u) :
    p.Matches (u.take (p.length u)) := by
  have hlength : (u.take (p.length u)).length = p.length u := by
    rw [List.length_take]
    exact Nat.min_eq_left (p.length_le u)
  refine ⟨?_, ?_⟩
  · intro hnil
    rw [hnil] at hlength
    exact absurd hlength.symm (Nat.pos_iff_ne_zero.1 h)
  · rw [p.within, hlength]

/-! ## Pieces -/

inductive Piece (α : Type) where
  | kept (c : α)
  | taken (t : List α)

namespace Piece

def text : Piece α → List α
  | .kept c => [c]
  | .taken t => t

/-- What a piece becomes when matches are replaced. -/
def become (new : List α) : Piece α → List α
  | .kept c => [c]
  | .taken _ => new

end Piece

/-- Read a text of which the first `skip` characters are taken out already. -/
def piecesFrom (p : Pattern α) : Nat → List α → List (Piece α)
  | _, [] => []
  | skip + 1, _ :: rest => piecesFrom p skip rest
  | 0, c :: rest =>
      match p.length (c :: rest) with
      | 0 => .kept c :: piecesFrom p 0 rest
      | k + 1 => .taken ((c :: rest).take (k + 1)) :: piecesFrom p k rest

def pieces (p : Pattern α) (u : List α) : List (Piece α) := piecesFrom p 0 u

/-- `text.replace(/pattern/g, new)` -/
def replaceAll (p : Pattern α) (new u : List α) : List α := (pieces p u).flatMap (Piece.become new)

def source (l : List (Piece α)) : List α := l.flatMap Piece.text

/-- What is left when the matches are taken out. -/
def left (l : List (Piece α)) : List α := l.flatMap (Piece.become [])

/-! Characters that are all kept. -/

theorem become_kept (new u : List α) : (u.map Piece.kept).flatMap (Piece.become new) = u := by
  simp [List.flatMap_map, Piece.become]

theorem source_kept (u : List α) : source (u.map Piece.kept) = u := by
  simp [source, List.flatMap_map, Piece.text]

section Reading

variable {p : Pattern α}

@[simp] theorem pieces_nil : pieces p [] = [] := rfl

theorem piecesFrom_eq (k : Nat) (u : List α) : piecesFrom p k u = pieces p (u.drop k) := by
  induction u generalizing k with
  | nil => simp [piecesFrom]
  | cons c rest ih =>
      cases k with
      | zero => rfl
      | succ k => exact ih k

theorem pieces_kept {c : α} {rest : List α} (h : p.length (c :: rest) = 0) :
    pieces p (c :: rest) = .kept c :: pieces p rest := by
  simp only [pieces, piecesFrom]
  rw [h]

theorem pieces_taken {u : List α} (h : 0 < p.length u) :
    pieces p u = .taken (u.take (p.length u)) :: pieces p (u.drop (p.length u)) := by
  cases u with
  | nil => exact absurd (p.length_le []) (Nat.not_le.2 h)
  | cons c rest =>
      rcases Nat.exists_eq_succ_of_ne_zero (Nat.pos_iff_ne_zero.1 h) with ⟨k, hk⟩
      have hread : pieces p (c :: rest) =
          .taken ((c :: rest).take (k + 1)) :: piecesFrom p k rest := by
        simp only [pieces, piecesFrom]
        rw [hk]
      rw [hread, hk, piecesFrom_eq]
      rfl

/-- Reading a text: it is over, keeps a character, or takes a match out. -/
@[elab_as_elim]
theorem reading {P : List α → Prop} (p : Pattern α) (nil : P [])
    (kept : ∀ c rest, p.length (c :: rest) = 0 → P rest → P (c :: rest))
    (taken : ∀ u, 0 < p.length u → P (u.drop (p.length u)) → P u) (u : List α) : P u := by
  induction hn : u.length using Nat.strong_induction_on generalizing u with
  | _ n ih =>
      cases u with
      | nil => exact nil
      | cons c rest =>
          by_cases hmatch : p.length (c :: rest) = 0
          · exact kept c rest hmatch (ih rest.length (by simp [← hn]) rest rfl)
          · have hpos : 0 < p.length (c :: rest) := Nat.pos_of_ne_zero hmatch
            refine taken _ hpos (ih _ ?_ _ rfl)
            rw [List.length_drop, ← hn]
            exact Nat.sub_lt (by simp) hpos

@[simp] theorem source_pieces (p : Pattern α) (u : List α) : source (pieces p u) = u := by
  induction u using reading p with
  | nil => rfl
  | kept c rest h ih =>
      rw [pieces_kept h, source, List.flatMap_cons]
      exact congrArg (c :: ·) ih
  | taken u h ih =>
      rw [pieces_taken h, source, List.flatMap_cons]
      exact (congrArg (u.take (p.length u) ++ ·) ih).trans (List.take_append_drop _ u)

/-- Reading goes on behind a piece as if the text began there. -/
theorem pieces_append {u : List α} {before behind : List (Piece α)}
    (h : pieces p u = before ++ behind) : behind = pieces p (source behind) := by
  induction u using reading p generalizing before with
  | nil =>
      rcases List.append_eq_nil_iff.1 h.symm with ⟨_, rfl⟩
      rfl
  | kept c rest hmatch ih =>
      cases before with
      -- nothing was read yet
      | nil => rw [show behind = pieces p (c :: rest) from h.symm, source_pieces]
      | cons piece before =>
          rw [pieces_kept hmatch] at h
          exact ih (List.cons.inj h).2
  | taken u hmatch ih =>
      cases before with
      | nil => rw [show behind = pieces p u from h.symm, source_pieces]
      | cons piece before =>
          rw [pieces_taken hmatch] at h
          exact ih (List.cons.inj h).2

/-- No match begins where a character is kept. -/
theorem length_eq_zero_of_kept {u : List α} {before behind : List (Piece α)} {c : α}
    (h : pieces p u = before ++ .kept c :: behind) : p.length (c :: source behind) = 0 := by
  have hread := pieces_append h
  by_contra hmatch
  have hsource : source (Piece.kept c :: behind) = c :: source behind := rfl
  rw [hsource, pieces_taken (Nat.pos_of_ne_zero hmatch)] at hread
  cases (List.cons.inj hread).1

/-- What is taken out is a match. -/
theorem matches_of_taken {u t : List α} (h : .taken t ∈ pieces p u) : p.Matches t := by
  induction u using reading p with
  | nil => exact absurd h List.not_mem_nil
  | kept c rest hmatch ih =>
      rw [pieces_kept hmatch] at h
      rcases List.mem_cons.1 h with h | h
      · cases h
      · exact ih h
  | taken u hmatch ih =>
      rw [pieces_taken hmatch] at h
      rcases List.mem_cons.1 h with h | h
      · cases h
        exact matches_take hmatch
      · exact ih h

theorem replaceAll_kept {new rest : List α} {c : α} (h : p.length (c :: rest) = 0) :
    replaceAll p new (c :: rest) = c :: replaceAll p new rest := by
  rw [replaceAll, pieces_kept h]
  rfl

theorem replaceAll_taken {new z : List α} (h : p.Matches z) (rest : List α) :
    replaceAll p new (z ++ rest) = new ++ replaceAll p new rest := by
  have hlength : p.length (z ++ rest) = z.length := p.stable z rest h.2 h.1
  have hpos : 0 < p.length (z ++ rest) := by
    rw [hlength]
    exact List.length_pos_iff.2 h.1
  rw [replaceAll, pieces_taken hpos, hlength, List.drop_left]
  rfl

/-! ## Texts without a match -/

/-- Nothing is taken out of a text without a match. -/
theorem pieces_of_not_has {u : List α} (h : ¬ Has p.Matches u) : pieces p u = u.map .kept := by
  induction u using reading p with
  | nil => rfl
  | kept c rest hmatch ih =>
      rw [pieces_kept hmatch, ih fun hrest => h (hrest.of_within (List.suffix_cons c rest).isInfix)]
      rfl
  | taken u hmatch _ => exact absurd ⟨_, matches_take hmatch, (List.take_prefix _ u).isInfix⟩ h

/-- And the other way round. -/
theorem not_has_of_pieces {u : List α} (h : pieces p u = u.map .kept) : ¬ Has p.Matches u := by
  rintro ⟨z, ⟨hne, hlength⟩, a, b, rfl⟩
  cases z with
  | nil => exact hne rfl
  | cons c z =>
      have hsplit : pieces p (a ++ (c :: z) ++ b) = a.map .kept ++ .kept c :: (z ++ b).map .kept := by
        rw [h]
        simp
      -- the first character of the match is kept, so no match begins there
      have hzero := length_eq_zero_of_kept hsplit
      have hmatch := p.stable (c :: z) b hlength hne
      rw [source_kept, ← List.cons_append, hmatch] at hzero
      exact Nat.succ_ne_zero _ hzero

theorem replaceAll_eq_self {new u : List α} (h : ¬ Has p.Matches u) : replaceAll p new u = u := by
  rw [replaceAll, pieces_of_not_has h, become_kept]

/-- With something shorter in the place of matches, a text gets shorter unless it has none. -/
theorem length_replaceAll {new : List α} (hnew : ∀ z, p.Matches z → new.length < z.length)
    (u : List α) :
    pieces p u = u.map .kept ∨ (replaceAll p new u).length < u.length := by
  induction u using reading p with
  | nil => exact Or.inl rfl
  | kept c rest hmatch ih =>
      rcases ih with ih | ih
      · left
        rw [pieces_kept hmatch, ih]
        rfl
      · right
        rw [replaceAll_kept hmatch, List.length_cons, List.length_cons]
        exact Nat.succ_lt_succ ih
  | taken u hmatch ih =>
      -- the match gets shorter, and the rest does not get longer
      right
      have htaken := hnew _ (matches_take hmatch)
      have hrest : (replaceAll p new (u.drop (p.length u))).length ≤ (u.drop (p.length u)).length := by
        rcases ih with ih | ih
        · rw [replaceAll, ih, become_kept]
        · exact le_of_lt ih
      rw [replaceAll, pieces_taken hmatch, List.flatMap_cons, List.length_append]
      have htotal : u.length = (u.take (p.length u)).length + (u.drop (p.length u)).length := by
        rw [← List.length_append, List.take_append_drop]
      change new.length + (replaceAll p new (u.drop (p.length u))).length < u.length
      omega

/-- Characters that matches do not have stay, in their order. -/
theorem filter_replaceAll {q : α → Bool} (hq : ∀ z, p.Matches z → z.filter q = []) (u : List α) :
    (replaceAll p [] u).filter q = u.filter q := by
  induction u using reading p with
  | nil => rfl
  | kept c rest hmatch ih =>
      rw [replaceAll_kept hmatch, List.filter_cons, List.filter_cons, ih]
  | taken u hmatch ih =>
      rw [replaceAll, pieces_taken hmatch, List.flatMap_cons]
      change (replaceAll p [] (u.drop (p.length u))).filter q = _
      have hsplit : u.filter q =
          (u.take (p.length u)).filter q ++ (u.drop (p.length u)).filter q := by
        rw [← List.filter_append, List.take_append_drop]
      rw [ih, hsplit, hq _ (matches_take hmatch), List.nil_append]

end Reading

/-! ## Replacing one pattern after the other -/

/-- A pattern, and something shorter than its matches to put in their place. -/
structure Stage (α : Type) where
  pattern : Pattern α
  new : List α
  shorter : ∀ z, pattern.Matches z → new.length < z.length

def Stage.apply (stage : Stage α) (u : List α) : List α := replaceAll stage.pattern stage.new u

theorem Stage.length_apply (stage : Stage α) (u : List α) :
    ¬ Has stage.pattern.Matches u ∧ stage.apply u = u ∨ (stage.apply u).length < u.length := by
  rcases length_replaceAll stage.shorter u with hpieces | hlt
  · have hnot := not_has_of_pieces hpieces
    exact Or.inl ⟨hnot, replaceAll_eq_self hnot⟩
  · exact Or.inr hlt

/-- Replacing one pattern after the other leaves a text alone, or makes it shorter. -/
theorem foldl_apply (stages : List (Stage α)) (u : List α) :
    (∀ stage ∈ stages, ¬ Has stage.pattern.Matches u) ∧
        stages.foldl (fun text stage => stage.apply text) u = u ∨
      (stages.foldl (fun text stage => stage.apply text) u).length < u.length := by
  induction stages generalizing u with
  | nil => exact Or.inl ⟨fun _ h => absurd h List.not_mem_nil, rfl⟩
  | cons stage stages ih =>
      rw [List.foldl_cons]
      rcases stage.length_apply u with ⟨hnot, heq⟩ | hlt
      · rw [heq]
        rcases ih u with ⟨hall, hsame⟩ | hshorter
        · exact Or.inl ⟨List.forall_mem_cons.2 ⟨hnot, hall⟩, hsame⟩
        · exact Or.inr hshorter
      · -- what is shorter already stays so
        right
        rcases ih (stage.apply u) with ⟨_, hsame⟩ | hshorter
        · rw [hsame]
          exact hlt
        · exact lt_trans hshorter hlt

/-- A text without a match of any of the patterns is left alone. -/
theorem foldl_apply_eq_self {stages : List (Stage α)} {u : List α}
    (h : ∀ stage ∈ stages, ¬ Has stage.pattern.Matches u) :
    stages.foldl (fun text stage => stage.apply text) u = u := by
  induction stages with
  | nil => rfl
  | cons stage stages ih =>
      rcases List.forall_mem_cons.1 h with ⟨hstage, hstages⟩
      rw [List.foldl_cons, Stage.apply, replaceAll_eq_self hstage]
      exact ih hstages

/-! ## What comes together -/

/-- `z` is put together across something that is taken out. -/
def Joins (l : List (Piece α)) (z : List α) : Prop :=
  ∃ before t behind x y, l = before ++ .taken t :: behind ∧ z = x ++ y ∧ x ≠ [] ∧ y ≠ [] ∧
    x <:+ left before ∧ y <+: left behind

/-- `z` stands in one piece among the kept characters. -/
def Stays (l : List (Piece α)) (z : List α) : Prop :=
  ∃ before behind, l = before ++ z.map .kept ++ behind

section Joining

variable {l : List (Piece α)} {z : List α}

theorem left_append (l m : List (Piece α)) : left (l ++ m) = left l ++ left m := List.flatMap_append

theorem source_append (l m : List (Piece α)) : source (l ++ m) = source l ++ source m :=
  List.flatMap_append

theorem left_kept (u : List α) : left (u.map Piece.kept) = u := become_kept [] u

theorem Stays.infix_left (h : Stays l z) : z <:+: left l := by
  rcases h with ⟨before, behind, rfl⟩
  rw [left_append, left_append, left_kept]
  exact ⟨_, _, rfl⟩

theorem Stays.infix_source (h : Stays l z) : z <:+: source l := by
  rcases h with ⟨before, behind, rfl⟩
  rw [source_append, source_append, source_kept]
  exact ⟨_, _, rfl⟩

theorem Joins.infix_left (h : Joins l z) : z <:+: left l := by
  rcases h with ⟨before, t, behind, x, y, rfl, rfl, _, _, ⟨a, ha⟩, ⟨b, hb⟩⟩
  refine ⟨a, b, ?_⟩
  rw [left_append, ← ha]
  show a ++ (x ++ y) ++ b = a ++ x ++ left behind
  rw [← hb]
  simp

/-- Where a character of what is left comes from. -/
theorem exists_kept {a rest : List α} {c : α} (h : left l = a ++ c :: rest) :
    ∃ before behind, l = before ++ .kept c :: behind ∧ left before = a ∧ left behind = rest := by
  induction l generalizing a with
  | nil => exact absurd h.symm (by simp [left])
  | cons piece l ih =>
      cases piece with
      | taken t =>
          -- nothing of a match is left
          rcases ih h with ⟨before, behind, rfl, hbefore, hbehind⟩
          exact ⟨.taken t :: before, behind, rfl, hbefore, hbehind⟩
      | kept d =>
          cases a with
          | nil =>
              rcases List.cons.inj h with ⟨rfl, hrest⟩
              exact ⟨[], l, rfl, rfl, hrest⟩
          | cons e a =>
              rcases List.cons.inj h with ⟨rfl, hrest⟩
              rcases ih hrest with ⟨before, behind, rfl, hbefore, hbehind⟩
              exact ⟨.kept d :: before, behind, rfl, congrArg (d :: ·) hbefore, hbehind⟩

/-- The kept characters of `z` follow each other, up to the first match in between. -/
theorem kept_or_taken {b : List α} (h : left l = z ++ b) :
    (∃ behind, l = z.map .kept ++ behind) ∨
      ∃ x y t behind, z = x ++ y ∧ y ≠ [] ∧ l = x.map .kept ++ .taken t :: behind ∧
        left behind = y ++ b := by
  induction z generalizing l with
  | nil => exact Or.inl ⟨l, rfl⟩
  | cons c z ih =>
      cases l with
      | nil => exact absurd h (by simp [left])
      | cons piece l =>
          cases piece with
          | taken t => exact Or.inr ⟨[], c :: z, t, l, rfl, List.cons_ne_nil _ _, rfl, h⟩
          | kept d =>
              rcases List.cons.inj h with ⟨rfl, hrest⟩
              rcases ih hrest with ⟨behind, rfl⟩ | ⟨x, y, t, behind, rfl, hy, rfl, hbehind⟩
              · exact Or.inl ⟨behind, rfl⟩
              · exact Or.inr ⟨d :: x, y, t, behind, rfl, hy, rfl, hbehind⟩

/-- A text in what is left stood there before, or was put together. -/
theorem stays_or_joins (hne : z ≠ []) (h : z <:+: left l) : Stays l z ∨ Joins l z := by
  rcases h with ⟨a, b, h⟩
  cases z with
  | nil => exact absurd rfl hne
  | cons c z =>
      have hleft : left l = a ++ c :: (z ++ b) := by
        rw [← h]
        simp
      -- from the first character on, `z` is kept to its end or interrupted by a match
      rcases exists_kept hleft with ⟨before, behind, rfl, hbefore, hbehind⟩
      rcases kept_or_taken hbehind with ⟨rest, rfl⟩ | ⟨x, y, t, rest, rfl, hy, rfl, hrest⟩
      · exact Or.inl ⟨before, rest, by simp⟩
      · refine Or.inr ⟨before ++ .kept c :: x.map .kept, t, rest, c :: x, y, by simp, rfl,
          List.cons_ne_nil _ _, hy, ?_, ?_⟩
        · rw [left_append]
          exact ⟨left before, congrArg (fun u => left before ++ c :: u) (left_kept x).symm⟩
        · rw [hrest]
          exact List.prefix_append y b

/-- What is left begins with what is left of some first pieces. -/
theorem split_left {x y : List α} (h : left l = x ++ y) :
    ∃ before behind, l = before ++ behind ∧ left before = x ∧ left behind = y := by
  cases y with
  | nil => exact ⟨l, [], (List.append_nil l).symm, h.trans (List.append_nil x), rfl⟩
  | cons c y =>
      rcases exists_kept h with ⟨before, behind, rfl, hbefore, hbehind⟩
      exact ⟨before, .kept c :: behind, rfl, hbefore, congrArg (c :: ·) hbehind⟩

/-! ## What no match overlaps -/

/-- Neither text has the last character of the other one. -/
def Clear (z t : List α) : Prop := (∀ f ∈ z.getLast?, f ∉ t) ∧ ∀ e ∈ t.getLast?, e ∉ z

theorem exists_getLast {u : List α} (h : u ≠ []) : ∃ e ∈ u.getLast?, e ∈ u := by
  refine ⟨u.getLast h, ?_, List.getLast_mem h⟩
  exact List.getLast?_eq_some_getLast h

/-- Ends of clear texts do not begin at the same place. -/
theorem Clear.ends (z₀ t₀ : List α) {s r b m : List α} (h : Clear (z₀ ++ s) (t₀ ++ r)) (hs : s ≠ [])
    (hr : r ≠ []) (heq : r ++ m = s ++ b) : False := by
  rcases exists_getLast hs with ⟨f, hf, hfs⟩
  rcases exists_getLast hr with ⟨e, he, her⟩
  -- the shorter of the two ends lies in the other one, with its last character
  rcases List.append_eq_append_iff.1 heq with ⟨k, hk, _⟩ | ⟨k, hk, _⟩
  · refine h.2 e ?_ ?_
    · rw [List.getLast?_append_of_ne_nil _ hr]
      exact he
    · rw [hk]
      simp [her]
  · refine h.1 f ?_ ?_
    · rw [List.getLast?_append_of_ne_nil _ hs]
      exact hf
    · rw [hk]
      simp [hfs]

/-- An end of a text that every match is clear of is kept. -/
theorem kept_of_clear {s b : List α} (hz : s <:+ z)
    (hclear : ∀ t, .taken t ∈ l → t ≠ [] ∧ Clear z t) (h : source l = s ++ b) :
    ∃ behind, l = s.map .kept ++ behind := by
  induction s generalizing l with
  | nil => exact ⟨l, rfl⟩
  | cons c s ih =>
      cases l with
      | nil => exact absurd h (by simp [source])
      | cons piece l =>
          cases piece with
          | taken t =>
              -- a match would begin where `s` begins
              rcases hclear t List.mem_cons_self with ⟨hne, ht⟩
              rcases hz with ⟨z₀, rfl⟩
              exact (Clear.ends z₀ [] ht (List.cons_ne_nil c s) hne h).elim
          | kept d =>
              rcases List.cons.inj h with ⟨rfl, hrest⟩
              have hsuffix : s <:+ z := (List.suffix_cons d s).trans hz
              have hrestClear : ∀ t, .taken t ∈ l → t ≠ [] ∧ Clear z t :=
                fun t ht => hclear t (List.mem_cons_of_mem _ ht)
              rcases ih hsuffix hrestClear hrest with ⟨behind, rfl⟩
              exact ⟨behind, rfl⟩

theorem stays_of_clear (hne : z ≠ []) (hclear : ∀ t, .taken t ∈ l → t ≠ [] ∧ Clear z t)
    (h : z <:+: source l) : Stays l z := by
  rcases h with ⟨a, b, h⟩
  have hsource : source l = a ++ (z ++ b) := by
    rw [← h, List.append_assoc]
  clear h
  -- by the pieces in front of `z`, of which `a` is the text
  induction l generalizing a with
  | nil =>
      rcases List.append_eq_nil_iff.1 hsource.symm with ⟨_, hnil⟩
      exact absurd (List.append_eq_nil_iff.1 hnil).1 hne
  | cons piece l ih =>
      have hrest : ∀ t, .taken t ∈ l → t ≠ [] ∧ Clear z t :=
        fun t ht => hclear t (List.mem_cons_of_mem _ ht)
      have hlater : Stays l z → Stays (piece :: l) z := by
        rintro ⟨before, behind, rfl⟩
        exact ⟨piece :: before, behind, rfl⟩
      cases piece with
      | kept d =>
          cases a with
          | nil =>
              rcases kept_of_clear List.suffix_rfl hclear hsource with ⟨behind, hl⟩
              exact ⟨[], behind, hl⟩
          | cons e a => exact hlater (ih hrest a (List.cons.inj hsource).2)
      | taken t =>
          rcases hclear t List.mem_cons_self with ⟨_, ht⟩
          -- the match ends before `z` begins, or reaches into it
          rcases List.append_eq_append_iff.1 (show t ++ source l = a ++ (z ++ b) from hsource) with
            ⟨k, hk, hkl⟩ | ⟨k, hk, hkl⟩
          · exact hlater (ih hrest k hkl)
          · cases k with
            | nil => exact hlater (ih hrest [] hkl.symm)
            | cons e k =>
                rw [hk] at ht
                exact (Clear.ends [] a ht hne (List.cons_ne_nil e k) hkl.symm).elim

end Joining

/-! ## Taking matches out -/

section Removing

variable {p : Pattern α} {Y : List α → Prop}

/-- Texts that no match overlaps are not lost, and may be put together. -/
theorem has_removed_iff (hclear : ∀ z, Y z → z ≠ [] ∧ ∀ t, p.Matches t → Clear z t) (u : List α) :
    Has Y (replaceAll p [] u) ↔ Has Y u ∨ ∃ z, Y z ∧ Joins (pieces p u) z := by
  constructor
  · rintro ⟨z, hz, hinfix⟩
    rcases stays_or_joins (hclear z hz).1 hinfix with hstays | hjoins
    · refine Or.inl ⟨z, hz, ?_⟩
      have hsource := hstays.infix_source
      rwa [source_pieces] at hsource
    · exact Or.inr ⟨z, hz, hjoins⟩
  · rintro (⟨z, hz, hinfix⟩ | ⟨z, hz, hjoins⟩)
    · have htaken : ∀ t, .taken t ∈ pieces p u → t ≠ [] ∧ Clear z t :=
        fun t ht => ⟨(matches_of_taken ht).1, (hclear z hz).2 t (matches_of_taken ht)⟩
      have hstays : Stays (pieces p u) z :=
        stays_of_clear (hclear z hz).1 htaken (by rwa [source_pieces])
      exact ⟨z, hz, hstays.infix_left⟩
    · exact ⟨z, hz, hjoins.infix_left⟩

/-- Matches are left only where they are put together. -/
theorem has_own_iff (u : List α) :
    Has p.Matches (replaceAll p [] u) ↔ ∃ z, p.Matches z ∧ Joins (pieces p u) z := by
  constructor
  · rintro ⟨z, hz, hinfix⟩
    rcases stays_or_joins hz.1 hinfix with hstays | hjoins
    · -- a match that was kept would have been taken out
      rcases hstays with ⟨before, behind, hread⟩
      cases z with
      | nil => exact absurd rfl hz.1
      | cons c z =>
          have hsplit : pieces p u = before ++ .kept c :: (z.map .kept ++ behind) := by
            rw [hread]
            simp
          have hzero := length_eq_zero_of_kept hsplit
          rw [source_append, source_kept, ← List.cons_append, p.stable _ _ hz.2 hz.1] at hzero
          exact absurd hzero (Nat.succ_ne_zero _)
    · exact ⟨z, hz, hjoins⟩
  · rintro ⟨z, hz, hjoins⟩
    exact ⟨z, hz, hjoins.infix_left⟩

end Removing

end Replace
end Strings
end PaymentRail
