import PaymentRail.Strings.Replace

/-!
# Outside — reading a text outside its matches

Where every match ends in one character and has it nowhere else (`ClosedBy`), the search from left to
right takes, of the matches that end in one place, the longest.  So what is left of a text can be read
off it without the search: `Outside M before u v` says that `u`, standing behind `before`, reads `v`
when the longest matches are left out.

- `outside_of_pieces`, `replaceAll_of_outside` : this is what `replaceAll` leaves
- `Broken` : a text that is read around at least one match inside it
- `Joins.broken`, `Broken.infix_replaceAll` : these are the texts that are put together
- `Becomes`, `Foreign` : what is read behind a replacement could be read before it
-/

namespace PaymentRail
namespace Strings
namespace Replace

variable {α : Type}

/-! ## Matches that end in one place -/

/-- The texts `M` end in `e` and have it nowhere else. -/
def ClosedBy (M : List α → Prop) (e : α) : Prop := ∀ z, M z → ∃ z', z = z' ++ [e] ∧ e ∉ z'

/-- No `M` begins in `u` and ends in `b`, which stands behind it. -/
def Apart (M : List α → Prop) (u b : List α) : Prop :=
  ∀ k k', k ≠ [] → k' ≠ [] → k <:+ u → k' <+: b → ¬ M (k ++ k')

/-- `t` is an `M`, and not the end of a longer one that begins in `before`. -/
def Longest (M : List α → Prop) (before t : List α) : Prop :=
  M t ∧ ∀ k, k ≠ [] → k <:+ before → ¬ M (k ++ t)

/-- Behind `before`, `u` reads `v` outside the texts `M`. -/
inductive Outside (M : List α → Prop) : List α → List α → List α → Prop where
  | nil {before : List α} : Outside M before [] []
  | keep {before u v : List α} {c : α} (hc : ∀ k, k <:+ before → ¬ M (k ++ [c]))
      (h : Outside M (before ++ [c]) u v) : Outside M before (c :: u) (c :: v)
  | skip {before t u v : List α} (ht : Longest M before t) (h : Outside M (before ++ t) u v) :
      Outside M before (t ++ u) v

/-- Behind `before`, `u` reads `z` outside the texts `M`, at least one of them inside `z`. -/
def BrokenAt (M : List α → Prop) (before z u : List α) : Prop :=
  ∃ u₁ t u₂ z₁ z₂, u = u₁ ++ (t ++ u₂) ∧ z = z₁ ++ z₂ ∧ z₁ ≠ [] ∧ z₂ ≠ [] ∧
    Outside M before u₁ z₁ ∧ Longest M (before ++ u₁) t ∧ Outside M (before ++ u₁ ++ t) u₂ z₂

/-- `u` ends in a text that is broken. -/
def Broken (M : List α → Prop) (z u : List α) : Prop :=
  ∃ a y, u = a ++ y ∧ BrokenAt M a z y

section Closed

variable {M : List α → Prop} {e c : α} {a b k k' t u v z : List α}

theorem ClosedBy.mem (h : ClosedBy M e) (hz : M z) : e ∈ z := by
  rcases h z hz with ⟨z', rfl, _⟩
  exact List.mem_append_right z' List.mem_cons_self

/-- What goes on behind an `e` is no `M`. -/
theorem ClosedBy.over (h : ClosedBy M e) (hk' : k' ≠ []) (he : e ∈ k) : ¬ M (k ++ k') := by
  intro hz
  rcases h _ hz with ⟨z', hsplit, hnot⟩
  rcases List.eq_nil_or_concat k' with rfl | ⟨k', d, rfl⟩
  · exact hk' rfl
  · rw [List.concat_eq_append, ← List.append_assoc] at hsplit
    have hz' := (List.append_inj' hsplit rfl).1
    rw [← hz'] at hnot
    exact hnot (List.mem_append_left k' he)

theorem Apart.suffix (h : Apart M (a ++ u) b) : Apart M u b :=
  fun k k' hk hk' hsuffix => h k k' hk hk' (hsuffix.trans (List.suffix_append a u))

theorem apart_nil_right : Apart M u [] :=
  fun _ _ _ hk' _ hprefix => absurd (List.prefix_nil.1 hprefix) hk'

/-- An `M` ends in `e` where it ends. -/
theorem ClosedBy.mem_end (h : ClosedBy M e) (hk' : k' ≠ []) (hz : M (k ++ k')) : e ∈ k' := by
  rcases h _ hz with ⟨z', hsplit, _⟩
  rcases List.eq_nil_or_concat k' with rfl | ⟨k', d, rfl⟩
  · exact absurd rfl hk'
  · rw [List.concat_eq_append, ← List.append_assoc] at hsplit
    rw [List.concat_eq_append, (List.append_inj' hsplit rfl).2]
    exact List.mem_append_right k' List.mem_cons_self

/-- Nothing that begins in front of a longest match ends in it or behind it. -/
theorem Longest.apart (hM : ClosedBy M e) (ht : Longest M a t) (b : List α) : Apart M a (t ++ b) := by
  intro k k' hk hk' hsuffix hprefix hmatch
  rcases List.prefix_or_prefix_of_prefix hprefix (List.prefix_append t b) with
    ⟨rest, rfl⟩ | ⟨more, rfl⟩
  · cases rest with
    | nil =>
        rw [List.append_nil] at ht
        exact ht.2 k hk hsuffix hmatch
    | cons d rest => exact hM.over (List.cons_ne_nil d rest) (hM.mem_end hk' hmatch) ht.1
  · cases more with
    | nil =>
        rw [List.append_nil] at hmatch
        exact ht.2 k hk hsuffix hmatch
    | cons d more =>
        rw [← List.append_assoc] at hmatch
        exact hM.over (List.cons_ne_nil d more) (List.mem_append_right k (hM.mem ht.1)) hmatch

end Closed

/-! ## Reading on -/

section Reading

variable {M : List α → Prop} {e c : α} {a b t u v w x y z : List α}

theorem Outside.append (h : Outside M a u v) (hx : Outside M (a ++ u) x y) :
    Outside M a (u ++ x) (v ++ y) := by
  induction h with
  | nil =>
      rw [List.append_nil] at hx
      exact hx
  | @keep before u v c hc _ ih =>
      rw [List.append_cons] at hx
      exact .keep hc (ih hx)
  | @skip before t u v ht _ ih =>
      rw [List.append_assoc]
      rw [← List.append_assoc] at hx
      exact .skip ht (ih hx)

/-- What is read from two parts is read in two parts. -/
theorem Outside.split (h : Outside M a u (x ++ y)) :
    ∃ u₁ u₂, u = u₁ ++ u₂ ∧ Outside M a u₁ x ∧ Outside M (a ++ u₁) u₂ y := by
  generalize hv : x ++ y = v at h
  induction h generalizing x with
  | nil =>
      rcases List.append_eq_nil_iff.1 hv with ⟨rfl, rfl⟩
      exact ⟨[], [], rfl, .nil, .nil⟩
  | @keep before u v c hc h ih =>
      cases x with
      | nil =>
          refine ⟨[], c :: u, rfl, .nil, ?_⟩
          rw [List.append_nil, show y = c :: v from hv]
          exact .keep hc h
      | cons d x =>
          rcases List.cons.inj hv with ⟨rfl, hrest⟩
          rcases ih hrest with ⟨u₁, u₂, rfl, h₁, h₂⟩
          rw [List.append_assoc] at h₂
          exact ⟨d :: u₁, u₂, rfl, .keep hc h₁, h₂⟩
  | @skip before t u v ht h ih =>
      rcases ih hv with ⟨u₁, u₂, rfl, h₁, h₂⟩
      rw [List.append_assoc] at h₂
      exact ⟨t ++ u₁, u₂, (List.append_assoc _ _ _).symm, .skip ht h₁, h₂⟩

/-- Characters that end no `M` are read as they are. -/
theorem Outside.keeps (hM : ClosedBy M e) (hw : e ∉ w) (h : Outside M (a ++ w) u v) :
    Outside M a (w ++ u) (w ++ v) := by
  induction w generalizing a with
  | nil =>
      rw [List.append_nil] at h
      exact h
  | cons c w ih =>
      rcases not_or.1 (fun hmem => hw (List.mem_cons.2 hmem)) with ⟨hc, hrest⟩
      rw [List.append_cons] at h
      refine .keep ?_ (ih hrest h)
      intro k _ hmatch
      exact hc (List.mem_singleton.1 (hM.mem_end (List.cons_ne_nil c []) hmatch))

theorem Outside.of_nil (hM : ClosedBy M e) (h : Outside M a [] v) : v = [] := by
  generalize hu : ([] : List α) = u at h
  induction h with
  | nil => rfl
  | keep hc h => cases hu
  | skip ht h =>
      have hmem := hM.mem ht.1
      rw [(List.append_eq_nil_iff.1 hu.symm).1] at hmem
      exact absurd hmem List.not_mem_nil

/-- The first character that is read, and what is left out in front of it. -/
theorem Outside.of_cons (h : Outside M a u (c :: v)) :
    ∃ g u', u = g ++ c :: u' ∧ Outside M a g [] ∧ (∀ k, k <:+ a ++ g → ¬ M (k ++ [c])) ∧
      Outside M (a ++ g ++ [c]) u' v := by
  generalize hv : c :: v = w at h
  induction h with
  | nil => cases hv
  | @keep before u w d hc h ih =>
      rcases List.cons.inj hv with ⟨rfl, rfl⟩
      refine ⟨[], u, rfl, .nil, ?_, ?_⟩
      · rwa [List.append_nil]
      · rwa [List.append_nil]
  | @skip before t u w ht h ih =>
      rcases ih hv with ⟨g, u', rfl, hg, hc, hrest⟩
      rw [List.append_assoc before t g] at hc hrest
      exact ⟨t ++ g, u', (List.append_assoc _ _ _).symm, .skip ht hg, hc, hrest⟩

theorem BrokenAt.keep (hc : ∀ k, k <:+ a → ¬ M (k ++ [c])) (h : BrokenAt M (a ++ [c]) z u) :
    BrokenAt M a (c :: z) (c :: u) := by
  rcases h with ⟨u₁, t, u₂, z₁, z₂, rfl, rfl, _, hz₂, hfirst, ht, hlast⟩
  rw [← List.append_cons] at ht hlast
  exact ⟨c :: u₁, t, u₂, c :: z₁, z₂, rfl, rfl, List.cons_ne_nil c z₁, hz₂, .keep hc hfirst, ht, hlast⟩

theorem BrokenAt.skip (ht : Longest M a t) (h : BrokenAt M (a ++ t) z u) : BrokenAt M a z (t ++ u) := by
  rcases h with ⟨u₁, t', u₂, z₁, z₂, rfl, rfl, hz₁, hz₂, hfirst, ht', hlast⟩
  rw [List.append_assoc a t u₁] at ht' hlast
  exact ⟨t ++ u₁, t', u₂, z₁, z₂, (List.append_assoc _ _ _).symm, rfl, hz₁, hz₂, .skip ht hfirst, ht',
    hlast⟩

/-- Every character is read, or left out with an `M`. -/
theorem Outside.mem (h : Outside M a u v) (hc : c ∈ u) : c ∈ v ∨ ∃ t, M t ∧ c ∈ t := by
  induction h with
  | nil => exact absurd hc List.not_mem_nil
  | keep _ _ ih =>
      rcases List.mem_cons.1 hc with rfl | hc
      · exact Or.inl List.mem_cons_self
      · exact (ih hc).imp_left (List.mem_cons_of_mem _)
  | @skip before t u v ht _ ih =>
      rcases List.mem_append.1 hc with hc | hc
      · exact Or.inr ⟨t, ht.1, hc⟩
      · exact ih hc

theorem Outside.head (hM : ClosedBy M e) (h : Outside M a u v) (hc : c ∈ u.head?) :
    c ∈ v.head? ∨ ∃ t, M t ∧ c ∈ t.head? := by
  induction h with
  | nil => cases hc
  | keep _ _ _ => exact Or.inl hc
  | @skip before t u v ht _ _ =>
      have hne : t ≠ [] := List.ne_nil_of_mem (hM.mem ht.1)
      rw [List.head?_append_of_ne_nil _ hne] at hc
      exact Or.inr ⟨t, ht.1, hc⟩

/-- What is read begins with the text, unless something is left out of it or in front of it. -/
theorem Outside.first (h : Outside M a u z) (hz : z ≠ []) :
    (∃ g, u = z ++ g ∧ Outside M (a ++ z) g []) ∨ BrokenAt M a z u ∨
      ∃ t u', u = t ++ u' ∧ Longest M a t ∧ Outside M (a ++ t) u' z := by
  induction h with
  | nil => exact absurd rfl hz
  | @keep before u v c hc h ih =>
      by_cases hnil : v = []
      · subst hnil
        exact Or.inl ⟨u, rfl, h⟩
      · rcases ih hnil with ⟨g, rfl, hg⟩ | hbroken | ⟨t, u', rfl, ht, hrest⟩
        · rw [List.append_assoc] at hg
          exact Or.inl ⟨g, rfl, hg⟩
        · exact Or.inr (Or.inl (hbroken.keep hc))
        · exact Or.inr (Or.inl ⟨[c], t, u', [c], v, rfl, rfl, List.cons_ne_nil c [], hnil,
            .keep hc .nil, ht, hrest⟩)
  | @skip before t u v ht h _ => exact Or.inr (Or.inr ⟨t, u, rfl, ht, h⟩)

/-- What is read is there in one piece, or broken. -/
theorem Outside.whole_or_broken (hM : ClosedBy M e) (h : Outside M a u z) (hz : z ≠ []) :
    (∃ g g', u = g ++ (z ++ g') ∧ Outside M a g [] ∧ Outside M (a ++ (g ++ z)) g' []) ∨
      BrokenAt M a z u := by
  induction hn : u.length using Nat.strong_induction_on generalizing a u with
  | _ n ih =>
      rcases h.first hz with ⟨g, rfl, hg⟩ | hbroken | ⟨t, u', rfl, ht, hrest⟩
      · exact Or.inl ⟨[], g, rfl, .nil, hg⟩
      · exact Or.inr hbroken
      · have hshorter : u'.length < n := by
          have hpos : 0 < t.length := List.length_pos_of_mem (hM.mem ht.1)
          rw [← hn, List.length_append]
          omega
        rcases ih _ hshorter hrest rfl with ⟨g, g', rfl, hg, hg'⟩ | hbroken
        · rw [List.append_assoc a t (g ++ z), ← List.append_assoc t g z] at hg'
          exact Or.inl ⟨t ++ g, g', (List.append_assoc _ _ _).symm, .skip ht hg, hg'⟩
        · exact Or.inr (hbroken.skip ht)

/-- The last character is read, or ends an `M` that is left out. -/
theorem Outside.last (hM : ClosedBy M e) (h : Outside M a u v) (hu : u ≠ []) :
    ∃ f ∈ u.getLast?, f = e ∨ f ∈ v.getLast? := by
  induction h with
  | nil => exact absurd rfl hu
  | @keep before u v c hc h ih =>
      by_cases hnil : u = []
      · subst hnil
        rw [h.of_nil hM]
        exact ⟨c, rfl, Or.inr rfl⟩
      · rcases ih hnil with ⟨f, hf, hor⟩
        refine ⟨f, ?_, hor.imp_right ?_⟩
        · rw [← List.singleton_append, List.getLast?_append_of_ne_nil _ hnil]
          exact hf
        · intro hlast
          rw [← List.singleton_append, List.getLast?_append_of_ne_nil _ (List.ne_nil_of_mem
            (List.mem_of_getLast? hlast))]
          exact hlast
  | @skip before t u v ht h ih =>
      by_cases hnil : u = []
      · subst hnil
        rw [List.append_nil]
        rcases hM t ht.1 with ⟨t', rfl, _⟩
        exact ⟨e, List.getLast?_concat, Or.inl rfl⟩
      · rcases ih hnil with ⟨f, hf, hor⟩
        rw [List.getLast?_append_of_ne_nil _ hnil]
        exact ⟨f, hf, hor⟩

/-- No `M` reaches over the end of what is read, by its last character. -/
theorem Outside.apart (hM : ClosedBy M e) (h : Outside M a u v) (hu : u ≠ [])
    (hlast : ∀ f ∈ v.getLast?, f = e ∨ ∀ z, M z → f ∉ z) : Apart M (a ++ u) b := by
  rcases h.last hM hu with ⟨f, hf, hor⟩
  have hf' : f = e ∨ ∀ z, M z → f ∉ z := by
    rcases hor with heq | hv
    · exact Or.inl heq
    · exact hlast f hv
  intro k k' hk hk' hsuffix _ hmatch
  have hmem : f ∈ k := by
    rcases hsuffix with ⟨m, hm⟩
    have hends := congrArg List.getLast? hm
    rw [List.getLast?_append_of_ne_nil _ hk, List.getLast?_append_of_ne_nil _ hu] at hends
    exact List.mem_of_getLast? (hends.trans hf)
  rcases hf' with rfl | hnone
  · exact hM.over hk' hmem hmatch
  · exact hnone _ hmatch (List.mem_append_left k' hmem)

end Reading

/-! ## What is left by the search -/

section Searching

variable {p : Pattern α} {e : α} {a b s u v z : List α} {before behind : List (Piece α)}

/-- No match reaches over the end of a piece. -/
theorem apart_of_pieces (hclosed : ClosedBy p.Matches e) (h : pieces p s = before ++ behind) :
    Apart p.Matches (source before) (source behind) := by
  intro k k' hk hk' hsuffix hprefix hmatch
  induction before generalizing s with
  | nil => exact hk (List.suffix_nil.1 hsuffix)
  | cons piece before ih =>
      have hread : pieces p (source (before ++ behind)) = before ++ behind :=
        (pieces_append (show pieces p s = [piece] ++ (before ++ behind) from h)).symm
      cases piece with
      | kept d =>
          rcases List.suffix_cons_iff.1 (show k <:+ d :: source before from hsuffix) with rfl | hlater
          · -- the match would begin where a character is kept
            rcases hprefix with ⟨rest, hrest⟩
            have hzero : p.length (d :: source (before ++ behind)) = 0 :=
              length_eq_zero_of_kept (show pieces p s = [] ++ .kept d :: (before ++ behind) from h)
            rw [source_append, ← hrest, ← List.cons_append, ← List.append_assoc,
              p.stable _ rest hmatch.2 hmatch.1] at hzero
            exact hmatch.1 (List.length_eq_zero_iff.1 hzero)
          · exact ih hread hlater
      | taken t =>
          have htaken : p.Matches t := matches_of_taken (u := s) (by rw [h]; exact List.mem_cons_self)
          rcases hsuffix with ⟨m, hm⟩
          rcases List.append_eq_append_iff.1 (show m ++ k = t ++ source before from hm) with
            ⟨n, hn, hk₁⟩ | ⟨n, rfl, hn⟩
          · -- it would begin in a match that is taken out, and have its end in it
            cases n with
            | nil => exact ih hread ⟨[], by rw [hk₁]; rfl⟩
            | cons d n =>
                have hmem : e ∈ d :: n := by
                  rw [hn] at htaken
                  exact hclosed.mem_end (List.cons_ne_nil d n) htaken
                rw [hk₁] at hmatch
                exact hclosed.over hk' (List.mem_append_left _ hmem) hmatch
          · exact ih hread ⟨n, hn.symm⟩

theorem longest_of_pieces {t : List α} (hclosed : ClosedBy p.Matches e)
    (h : pieces p s = before ++ .taken t :: behind) : Longest p.Matches (source before) t := by
  have ht : p.Matches t := by
    refine matches_of_taken (u := s) ?_
    rw [h]
    exact List.mem_append_right before List.mem_cons_self
  refine ⟨ht, ?_⟩
  intro k hk hsuffix
  exact apart_of_pieces hclosed h k t hk ht.1 hsuffix ⟨source behind, rfl⟩

theorem outside_of_pieces (before l behind : List (Piece α)) (hclosed : ClosedBy p.Matches e)
    (h : pieces p s = before ++ (l ++ behind)) :
    Outside p.Matches (source before) (source l) (left l) := by
  induction l generalizing before with
  | nil => exact .nil
  | cons piece l ih =>
      have hmore : pieces p s = (before ++ [piece]) ++ (l ++ behind) := by
        rw [h]
        simp
      have hrest := ih _ hmore
      rw [source_append] at hrest
      cases piece with
      | kept c =>
          refine .keep ?_ hrest
          intro k hsuffix hmatch
          by_cases hk : k = []
          · subst hk
            have hzero := length_eq_zero_of_kept h
            rw [← List.singleton_append, p.stable [c] _ hmatch.2 hmatch.1] at hzero
            exact Nat.succ_ne_zero _ hzero
          · have hapart := apart_of_pieces hclosed h
            exact hapart k [c] hk (List.cons_ne_nil c []) hsuffix ⟨source (l ++ behind), rfl⟩ hmatch
      | taken t =>
          rw [show source [Piece.taken t] = t from List.append_nil t] at hrest
          exact .skip (longest_of_pieces hclosed h) hrest

/-- Two texts that no match reaches over are replaced one by one. -/
theorem replaceAll_append (h : Apart p.Matches u b) :
    replaceAll p [] (u ++ b) = replaceAll p [] u ++ replaceAll p [] b := by
  induction u using reading p with
  | nil => rfl
  | kept c rest hmatch ih =>
      have hkept : p.length (c :: (rest ++ b)) = 0 := by
        rw [← List.cons_append]
        by_contra hpos
        have hz := matches_take (Nat.pos_of_ne_zero hpos)
        have hprefix := List.take_prefix (p.length (c :: rest ++ b)) (c :: rest ++ b)
        rcases List.prefix_or_prefix_of_prefix hprefix (List.prefix_append (c :: rest) b) with
          ⟨more, hmore⟩ | ⟨more, hmore⟩
        · -- it would have been found without `b`
          have hlength := p.stable _ more hz.2 hz.1
          rw [hmore, hmatch] at hlength
          exact hz.1 (List.length_eq_zero_iff.1 hlength.symm)
        · cases more with
          | nil =>
              rw [List.append_nil] at hmore
              rw [← hmore] at hz
              rw [hz.2] at hmatch
              exact Nat.succ_ne_zero _ hmatch
          | cons d more =>
              rw [← hmore] at hz hprefix
              exact h _ _ (List.cons_ne_nil c rest) (List.cons_ne_nil d more) List.suffix_rfl
                ((List.prefix_append_right_inj _).1 hprefix) hz
      rw [replaceAll_kept hmatch, List.cons_append, replaceAll_kept hkept,
        ih (h.suffix (a := [c])), List.cons_append]
  | taken u hmatch ih =>
      have hz := matches_take hmatch
      have hsplit := List.take_append_drop (p.length u) u
      have hrest := ih (Apart.suffix (a := u.take (p.length u)) (by rwa [hsplit]))
      calc
        replaceAll p [] (u ++ b)
            = replaceAll p [] (u.take (p.length u) ++ (u.drop (p.length u) ++ b)) := by
              rw [← List.append_assoc, hsplit]
        _ = replaceAll p [] (u.drop (p.length u)) ++ replaceAll p [] b := by
              rw [replaceAll_taken hz, List.nil_append, hrest]
        _ = replaceAll p [] u ++ replaceAll p [] b := by
              have hread : replaceAll p [] (u.take (p.length u) ++ u.drop (p.length u)) =
                  [] ++ replaceAll p [] (u.drop (p.length u)) := replaceAll_taken hz _
              rw [hsplit, List.nil_append] at hread
              rw [hread]

/-- What is read outside the matches is what the search leaves. -/
theorem replaceAll_of_outside (hclosed : ClosedBy p.Matches e) (h : Outside p.Matches a u v)
    (hend : Apart p.Matches (a ++ u) b) :
    replaceAll p [] (a ++ (u ++ b)) = replaceAll p [] a ++ (v ++ replaceAll p [] b) := by
  induction h with
  | @nil before =>
      rw [List.append_nil] at hend
      exact replaceAll_append hend
  | @keep before u v c hc _ ih =>
      rw [List.append_cons] at hend
      have hkept : replaceAll p [] (before ++ [c]) = replaceAll p [] before ++ [c] := by
        have hapart : Apart p.Matches before [c] := by
          intro k k' _ hk' hsuffix hprefix hmatch
          rcases List.prefix_cons_iff.1 hprefix with rfl | ⟨rest, rfl, hrest⟩
          · exact hk' rfl
          · rw [List.prefix_nil.1 hrest] at hmatch
            exact hc k hsuffix hmatch
        have hnone : ¬ Has p.Matches [c] := by
          rintro ⟨z, hz, hinfix⟩
          rcases (List.infix_singleton_iff z c).1 hinfix with rfl | rfl
          · exact hz.1 rfl
          · exact hc [] List.nil_suffix hz
        rw [replaceAll_append hapart, replaceAll_eq_self hnone]
      calc
        replaceAll p [] (before ++ (c :: u ++ b))
            = replaceAll p [] (before ++ [c] ++ (u ++ b)) := by simp
        _ = replaceAll p [] before ++ (c :: v ++ replaceAll p [] b) := by
              rw [ih hend, hkept]
              simp
  | @skip before t u v ht _ ih =>
      rw [← List.append_assoc] at hend
      have htaken : replaceAll p [] (before ++ t) = replaceAll p [] before := by
        have hapart := ht.apart hclosed []
        have hread : replaceAll p [] (t ++ []) = [] ++ replaceAll p [] [] := replaceAll_taken ht.1 []
        rw [List.append_nil] at hapart hread
        rw [replaceAll_append hapart, hread]
        exact List.append_nil _
      calc
        replaceAll p [] (before ++ (t ++ u ++ b))
            = replaceAll p [] (before ++ t ++ (u ++ b)) := by simp
        _ = replaceAll p [] before ++ (v ++ replaceAll p [] b) := by rw [ih hend, htaken]

end Searching

/-! ## What is put together -/

section Breaking

variable {p : Pattern α} {M : List α → Prop} {e : α} {a b s u v z : List α}

/-- What is put together was broken. -/
theorem Joins.broken (hclosed : ClosedBy p.Matches e) (h : Joins (pieces p s) z) :
    ∃ x, x <+: s ∧ Broken p.Matches z x := by
  rcases h with ⟨before, t, behind, z₁, z₂, hread, rfl, hz₁, hz₂, ⟨left₁, hbefore⟩, ⟨left₂, hbehind⟩⟩
  rcases split_left hbefore.symm with ⟨b₀, b₁, rfl, _, rfl⟩
  rcases split_left hbehind.symm with ⟨c₁, c₂, rfl, rfl, _⟩
  have hfirst := outside_of_pieces b₀ b₁ (.taken t :: (c₁ ++ c₂)) hclosed
    (by rw [hread, List.append_assoc])
  have ht := longest_of_pieces hclosed hread
  have hlast := outside_of_pieces (b₀ ++ b₁ ++ [.taken t]) c₁ c₂ hclosed
    (by rw [hread]; simp)
  rw [source_append] at ht
  rw [source_append, source_append, show source [Piece.taken t] = t from List.append_nil t] at hlast
  refine ⟨_, ⟨source c₂, ?_⟩, source b₀, _, rfl, source b₁, t, source c₁, left b₁, left c₁, rfl, rfl,
    hz₁, hz₂, hfirst, ht, hlast⟩
  rw [← source_pieces p s, hread, source_append, source_append]
  show source b₀ ++ (source b₁ ++ (t ++ source c₁)) ++ source c₂ =
    source b₀ ++ source b₁ ++ (t ++ source (c₁ ++ c₂))
  rw [source_append]
  simp

theorem Broken.last (hM : ClosedBy M e) (h : Broken M z u) :
    ∃ f ∈ u.getLast?, f = e ∨ f ∈ z.getLast? := by
  rcases h with ⟨a, _, rfl, u₁, t, u₂, z₁, z₂, rfl, rfl, _, hz₂, _, _, hlast⟩
  have hne : u₂ ≠ [] := by
    rintro rfl
    exact hz₂ (hlast.of_nil hM)
  rcases hlast.last hM hne with ⟨f, hf, hor⟩
  refine ⟨f, ?_, ?_⟩
  · rw [← List.append_assoc, ← List.append_assoc, List.getLast?_append_of_ne_nil _ hne]
    exact hf
  · rwa [List.getLast?_append_of_ne_nil _ hz₂]

theorem Broken.apart (hM : ClosedBy M e) (h : Broken M z u)
    (hlast : ∀ f ∈ z.getLast?, f = e ∨ ∀ t, M t → f ∉ t) : Apart M u b := by
  rcases h with ⟨a, _, rfl, u₁, t, u₂, z₁, z₂, rfl, rfl, _, hz₂, _, _, hread⟩
  have hne : u₂ ≠ [] := by
    rintro rfl
    exact hz₂ (hread.of_nil hM)
  rw [List.getLast?_append_of_ne_nil _ hz₂] at hlast
  have hapart := hread.apart (b := b) hM hne hlast
  rwa [List.append_assoc, List.append_assoc] at hapart

/-- And what is broken is put together, unless a match reaches over its end. -/
theorem Broken.infix_replaceAll (hclosed : ClosedBy p.Matches e) (h : Broken p.Matches z u)
    (hend : Apart p.Matches u b) : z <:+: replaceAll p [] (u ++ b) := by
  rcases h with ⟨a, _, rfl, u₁, t, u₂, z₁, z₂, rfl, rfl, _, _, hfirst, ht, hlast⟩
  have hread := hfirst.append (.skip ht hlast)
  have hleft := replaceAll_of_outside (b := b) hclosed hread hend
  refine ⟨replaceAll p [] a, replaceAll p [] b, ?_⟩
  rw [List.append_assoc a, hleft]
  simp

end Breaking

/-! ## Reading back over a replacement -/

/-- `u` becomes `v` when some of its parts are replaced as `R` says and its other characters kept. -/
inductive Becomes (R : List α → List α → Prop) : List α → List α → Prop where
  | nil : Becomes R [] []
  | keep (c : α) {u v : List α} (h : Becomes R u v) : Becomes R (c :: u) (c :: v)
  | swap {t new u v : List α} (ht : R t new) (h : Becomes R u v) : Becomes R (t ++ u) (new ++ v)

namespace Becomes

variable {R : List α → List α → Prop} {u v w x y : List α}

theorem keeps (w : List α) (h : Becomes R u v) : Becomes R (w ++ u) (w ++ v) := by
  induction w with
  | nil => exact h
  | cons c w ih => exact .keep c ih

theorem append (h : Becomes R u v) (hw : Becomes R x y) : Becomes R (u ++ x) (v ++ y) := by
  induction h with
  | nil => exact hw
  | keep c _ ih => exact .keep c ih
  | swap ht _ ih =>
      rw [List.append_assoc, List.append_assoc]
      exact .swap ht ih

theorem refl (w : List α) : Becomes R w w := by
  have hkeeps := keeps (R := R) w .nil
  rwa [List.append_nil] at hkeeps

theorem concat (h : Becomes R u v) (c : α) : Becomes R (u ++ [c]) (v ++ [c]) :=
  h.append (.keep c .nil)

/-- What comes from two parts comes from two parts. -/
theorem split (hR : ∀ t new, R t new → new.length ≤ 1) (h : Becomes R u (x ++ y)) :
    ∃ u₁ u₂, u = u₁ ++ u₂ ∧ Becomes R u₁ x ∧ Becomes R u₂ y := by
  generalize hv : x ++ y = v at h
  induction h generalizing x with
  | nil =>
      rcases List.append_eq_nil_iff.1 hv with ⟨rfl, rfl⟩
      exact ⟨[], [], rfl, .nil, .nil⟩
  | @keep c u v h ih =>
      cases x with
      | nil =>
          refine ⟨[], c :: u, rfl, .nil, ?_⟩
          rw [show y = c :: v from hv]
          exact .keep c h
      | cons d x =>
          rcases List.cons.inj hv with ⟨rfl, hrest⟩
          rcases ih hrest with ⟨u₁, u₂, rfl, h₁, h₂⟩
          exact ⟨d :: u₁, u₂, rfl, .keep d h₁, h₂⟩
  | @swap t new u v ht h ih =>
      cases x with
      | nil =>
          refine ⟨[], t ++ u, rfl, .nil, ?_⟩
          rw [show y = new ++ v from hv]
          exact .swap ht h
      | cons d x =>
          -- at most one character comes from `t`, so it comes as a whole
          have hx : ∃ x', d :: x = new ++ x' ∧ x' ++ y = v := by
            cases new with
            | nil => exact ⟨d :: x, rfl, hv⟩
            | cons e new =>
                have hnil : new = [] := List.length_eq_zero_iff.1 (Nat.le_zero.1
                  (Nat.le_of_succ_le_succ (hR t (e :: new) ht)))
                subst hnil
                rcases List.cons.inj hv with ⟨rfl, hrest⟩
                exact ⟨x, rfl, hrest⟩
          rcases hx with ⟨x', hx', hv'⟩
          rcases ih hv' with ⟨u₁, u₂, rfl, h₁, h₂⟩
          refine ⟨t ++ u₁, u₂, (List.append_assoc _ _ _).symm, ?_, h₂⟩
          rw [hx']
          exact .swap ht h₁

/-! Where each part that is replaced becomes one character. -/

section Single

variable {q : α → Prop} {c : α} {k : List α}

theorem of_cons (hR : ∀ t new, R t new → ∃ c, new = [c] ∧ q c) (h : Becomes R u (c :: v)) :
    (∃ u', u = c :: u' ∧ Becomes R u' v) ∨ ∃ t u', u = t ++ u' ∧ R t [c] ∧ q c ∧ Becomes R u' v := by
  generalize hw : c :: v = w at h
  cases h with
  | nil => cases hw
  | keep d h =>
      rcases List.cons.inj hw with ⟨rfl, rfl⟩
      exact Or.inl ⟨_, rfl, h⟩
  | @swap t new u w ht h =>
      rcases hR t new ht with ⟨d, rfl, hd⟩
      rcases List.cons.inj hw with ⟨rfl, rfl⟩
      exact Or.inr ⟨t, u, rfl, ht, hd, h⟩

theorem of_nil (hR : ∀ t new, R t new → ∃ c, new = [c] ∧ q c) (h : Becomes R u []) : u = [] := by
  generalize hw : ([] : List α) = w at h
  cases h with
  | nil => rfl
  | keep d h => cases hw
  | @swap t new u w ht h =>
      rcases hR t new ht with ⟨d, rfl, _⟩
      cases hw

/-- Characters that nothing becomes were there. -/
theorem of_kept (hR : ∀ t new, R t new → ∃ c, new = [c] ∧ q c) {g : List α} (hg : ∀ c ∈ g, ¬ q c)
    (h : Becomes R u (g ++ v)) : ∃ u', u = g ++ u' ∧ Becomes R u' v := by
  induction g generalizing u with
  | nil => exact ⟨u, rfl, h⟩
  | cons c g ih =>
      rcases List.forall_mem_cons.1 hg with ⟨hc, hg⟩
      rcases h.of_cons hR with ⟨u', rfl, hrest⟩ | ⟨_, _, _, _, hq, _⟩
      · rcases ih hg hrest with ⟨u'', rfl, hbehind⟩
        exact ⟨u'', rfl, hbehind⟩
      · exact absurd hq hc

/-- An end in which nothing was replaced was there. -/
theorem suffix_of (hR : ∀ t new, R t new → ∃ c, new = [c] ∧ q c) (h : Becomes R u v)
    (hk : k <:+ v) (hplain : ∀ c ∈ k, ¬ q c) : k <:+ u := by
  induction h with
  | nil => exact hk
  | @keep c u v h ih =>
      rcases List.suffix_cons_iff.1 hk with rfl | hlater
      · rw [← List.append_nil v] at h
        rcases h.of_kept hR fun d hd => hplain d (List.mem_cons_of_mem c hd) with ⟨u', rfl, hnil⟩
        rw [hnil.of_nil hR, List.append_nil]
      · exact (ih hlater).trans (List.suffix_cons c u)
  | @swap t new u v ht h ih =>
      rcases hR t new ht with ⟨d, rfl, hd⟩
      rcases List.suffix_cons_iff.1 (show k <:+ d :: v from hk) with rfl | hlater
      · exact absurd hd (hplain d List.mem_cons_self)
      · exact (ih hlater).trans (List.suffix_append t u)

end Single

/-! Where each part that is replaced ends in a character of its own. -/

section Stops

variable {stop : α → Prop} {k : List α}

theorem same (hR : ∀ t new, R t new → ∃ f ∈ t.getLast?, stop f) (h : Becomes R u v)
    (hu : ∀ c ∈ u, ¬ stop c) : v = u := by
  induction h with
  | nil => rfl
  | keep c _ ih => rw [ih fun d hd => hu d (List.mem_cons_of_mem c hd)]
  | @swap t new u v ht _ _ =>
      rcases hR t new ht with ⟨f, hf, hstop⟩
      exact absurd hstop (hu f (List.mem_append_left u (List.mem_of_getLast? hf)))

/-- An end without what is replaced is kept. -/
theorem suffix (hR : ∀ t new, R t new → ∃ f ∈ t.getLast?, stop f) (h : Becomes R u v)
    (hk : k <:+ u) (hplain : ∀ c ∈ k, ¬ stop c) : k <:+ v := by
  induction h with
  | nil => exact hk
  | @keep c u v h ih =>
      rcases List.suffix_cons_iff.1 hk with rfl | hlater
      · rw [h.same hR fun d hd => hplain d (List.mem_cons_of_mem c hd)]
      · exact (ih hlater).trans (List.suffix_cons c v)
  | @swap t new u v ht h ih =>
      rcases hk with ⟨m, hm⟩
      rcases List.append_eq_append_iff.1 hm with ⟨n, hn, rfl⟩ | ⟨n, rfl, hn⟩
      · cases n with
        | nil => exact (ih List.suffix_rfl).trans (List.suffix_append new v)
        | cons d n =>
            -- the last character of what is replaced would be in `k`
            rcases hR t new ht with ⟨f, hf, hstop⟩
            rw [hn, List.getLast?_append_of_ne_nil _ (List.cons_ne_nil d n)] at hf
            exact absurd hstop (hplain f (List.mem_append_left u (List.mem_of_getLast? hf)))
      · exact (ih ⟨n, hn.symm⟩).trans (List.suffix_append new v)

end Stops

end Becomes

/-! Where what is replaced and what is read over have no character in common. -/

section Back

variable {R : List α → List α → Prop} {q stop : α → Prop} {M : List α → Prop} {e : α}
  {a a' t u u' v z : List α}

/-- What `R` replaces becomes one character, and has no part in a text `M`. -/
structure Foreign (R : List α → List α → Prop) (q stop : α → Prop) (M : List α → Prop) (e : α) :
    Prop where
  single : ∀ t new, R t new → ∃ c, new = [c] ∧ q c
  ends : ∀ t new, R t new → e ∉ t ∧ ∃ f ∈ t.getLast?, stop f
  plain : ∀ z, M z → ∀ c ∈ z, ¬ q c ∧ ¬ stop c

theorem Foreign.longest (hF : Foreign R q stop M e) (ha : Becomes R a' a) (ht : Longest M a t) :
    Longest M a' t := by
  refine ⟨ht.1, ?_⟩
  intro k hk hsuffix hmatch
  have hplain : ∀ c ∈ k, ¬ stop c := fun c hc =>
    (hF.plain _ hmatch c (List.mem_append_left t hc)).2
  exact ht.2 k hk (ha.suffix (fun t new h => (hF.ends t new h).2) hsuffix hplain) hmatch

/-- What is read after the replacement could be read before it. -/
theorem Foreign.outside (hF : Foreign R q stop M e) (hM : ClosedBy M e) (ha : Becomes R a' a)
    (hu : Becomes R u' u) (h : Outside M a u v) : ∃ v', Outside M a' u' v' ∧ Becomes R v' v := by
  induction h generalizing a' u' with
  | nil =>
      rw [hu.of_nil hF.single]
      exact ⟨[], .nil, .nil⟩
  | @keep before u v c hc _ ih =>
      rcases hu.of_cons hF.single with ⟨u', rfl, hrest⟩ | ⟨t, u', rfl, ht, _, hrest⟩
      · rcases ih (ha.concat c) hrest with ⟨v', hread, hbecomes⟩
        refine ⟨c :: v', .keep ?_ hread, .keep c hbecomes⟩
        intro k hsuffix hmatch
        have hplain : ∀ d ∈ k, ¬ stop d := fun d hd =>
          (hF.plain _ hmatch d (List.mem_append_left [c] hd)).2
        exact hc k (ha.suffix (fun t new h => (hF.ends t new h).2) hsuffix hplain) hmatch
      · have hbefore : Becomes R (a' ++ t) (before ++ [c]) := by
          have hone := Becomes.swap ht .nil
          rw [List.append_nil] at hone
          exact ha.append hone
        rcases ih hbefore hrest with ⟨v', hread, hbecomes⟩
        exact ⟨t ++ v', hread.keeps hM (hF.ends t [c] ht).1, .swap ht hbecomes⟩
  | @skip before t u v ht _ ih =>
      have hplain : ∀ c ∈ t, ¬ q c := fun c hc => (hF.plain t ht.1 c hc).1
      rcases hu.of_kept hF.single hplain with ⟨u', rfl, hrest⟩
      rcases ih (ha.append (.refl t)) hrest with ⟨v', hread, hbecomes⟩
      exact ⟨v', .skip (hF.longest ha ht) hread, hbecomes⟩

/-- What is broken after the replacement was broken before it. -/
theorem Foreign.broken (hF : Foreign R q stop M e) (hM : ClosedBy M e) (hu : Becomes R u' u)
    (h : Broken M z u) : ∃ z', Broken M z' u' ∧ Becomes R z' z := by
  have hone : ∀ t new, R t new → new.length ≤ 1 := by
    intro t new ht
    rcases hF.single t new ht with ⟨c, rfl, _⟩
    exact Nat.le_refl 1
  have hne : ∀ {x y : List α}, Becomes R x y → y ≠ [] → x ≠ [] := by
    rintro x y hxy hy rfl
    exact hy (hxy.same (fun t new h => (hF.ends t new h).2) fun c hc => absurd hc List.not_mem_nil)
  rcases h with ⟨a, _, rfl, u₁, t, u₂, z₁, z₂, rfl, rfl, hz₁, hz₂, hread₁, ht, hread₂⟩
  rcases hu.split hone with ⟨a', u', rfl, ha, hu⟩
  rcases hu.split hone with ⟨u₁', u', rfl, hu₁, hu⟩
  have hplain : ∀ c ∈ t, ¬ q c := fun c hc => (hF.plain t ht.1 c hc).1
  rcases hu.of_kept hF.single hplain with ⟨u₂', rfl, hu₂⟩
  rcases hF.outside hM ha hu₁ hread₁ with ⟨z₁', hread₁', hbecomes₁⟩
  rcases hF.outside hM ((ha.append hu₁).append (.refl t)) hu₂ hread₂ with ⟨z₂', hread₂', hbecomes₂⟩
  exact ⟨z₁' ++ z₂', ⟨a', _, rfl, u₁', t, u₂', z₁', z₂', rfl, rfl, hne hbecomes₁ hz₁, hne hbecomes₂ hz₂,
    hread₁', hF.longest (ha.append hu₁) ht, hread₂'⟩, hbecomes₁.append hbecomes₂⟩

/-- What is untouched itself reads the same behind a text in which something was replaced. -/
theorem Foreign.longest_after (hF : Foreign R q stop M e) (ha : Becomes R a' a)
    (ht : Longest M a' t) : Longest M a t := by
  refine ⟨ht.1, ?_⟩
  intro k hk hsuffix hmatch
  have hplain : ∀ c ∈ k, ¬ q c := fun c hc => (hF.plain _ hmatch c (List.mem_append_left t hc)).1
  exact ht.2 k hk (ha.suffix_of hF.single hsuffix hplain) hmatch

theorem Foreign.outside_after (hF : Foreign R q stop M e) (ha : Becomes R a' a)
    (h : Outside M a' u v) : Outside M a u v := by
  induction h generalizing a with
  | nil => exact .nil
  | @keep before u v c hc _ ih =>
      refine .keep ?_ (ih (ha.concat c))
      intro k hsuffix hmatch
      have hplain : ∀ d ∈ k, ¬ q d := fun d hd =>
        (hF.plain _ hmatch d (List.mem_append_left [c] hd)).1
      exact hc k (ha.suffix_of hF.single hsuffix hplain) hmatch
  | @skip before t u v ht _ ih => exact .skip (hF.longest_after ha ht) (ih (ha.append (.refl t)))

end Back

end Replace
end Strings
end PaymentRail
