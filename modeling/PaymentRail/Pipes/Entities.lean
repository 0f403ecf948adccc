import PaymentRail.Pipes.Settled
import PaymentRail.Strings.Outside

/-!
# Entities — decoding a text before something is taken out of it

`stripHtml` decodes entities once and takes scripts and handlers out afterwards.  Neither of them has a
part in an entity (`TakenOut`), so a text can as well be read outside them before it is decoded:

- `entity_before`, `same_before` : how what shows after decoding was spelled
- `TakenOut.kind_decode` : where something is broken before decoding, something is broken behind it
- `TakenOut.outside_decode` : reading and decoding can be exchanged if no entity is broken
-/

namespace PaymentRail
namespace Pipes

open Strings Strings.Replace

/-! ## Entities -/

/-- What an entity becomes. -/
def Decodes (t new : Text) : Prop :=
  (t = "&lt;".toList ∧ new = ['<']) ∨ (t = "&gt;".toList ∧ new = ['>']) ∨
    (t = "&amp;".toList ∧ new = ['&'])

/-- An entity of which the `&` is itself spelled as one. -/
def Escaped (z : Text) : Prop := ∃ name, Entity ('&' :: name) ∧ z = "&amp;".toList ++ name

theorem becomes_decode (u : Text) : Becomes Decodes u (decode u) := by
  fun_induction decode u with
  | case1 rest ih => exact Becomes.swap (Or.inl ⟨rfl, rfl⟩) ih
  | case2 rest ih => exact Becomes.swap (Or.inr (Or.inl ⟨rfl, rfl⟩)) ih
  | case3 rest ih => exact Becomes.swap (Or.inr (Or.inr ⟨rfl, rfl⟩)) ih
  | case4 c rest _ _ _ ih => exact .keep c ih
  | case5 => exact .nil

/-- The characters that entities become. -/
def isDecoded (c : Char) : Bool := c = '<' || c = '>' || c = '&'

theorem decodes_single {t new : Text} (h : Decodes t new) :
    t ≠ [] ∧ ∃ c, new = [c] ∧ isDecoded c = true := by
  rcases h with ⟨rfl, rfl⟩ | ⟨rfl, rfl⟩ | ⟨rfl, rfl⟩
  · exact ⟨by decide, '<', rfl, rfl⟩
  · exact ⟨by decide, '>', rfl, rfl⟩
  · exact ⟨by decide, '&', rfl, rfl⟩

theorem entity_names {z : Text} (h : Entity z) :
    ∃ name, z = '&' :: name ∧ (name = "lt;".toList ∨ name = "gt;".toList ∨ name = "amp;".toList) := by
  have hword : ∀ word : Text, Spelled id word z → z = word := by
    intro word hspelled
    rw [← hspelled, List.map_id]
  rcases h with h | h | h
  · exact ⟨"lt;".toList, hword _ h, Or.inl rfl⟩
  · exact ⟨"gt;".toList, hword _ h, Or.inr (Or.inl rfl)⟩
  · exact ⟨"amp;".toList, hword _ h, Or.inr (Or.inr rfl)⟩

theorem name_not_decoded {name : Text}
    (h : name = "lt;".toList ∨ name = "gt;".toList ∨ name = "amp;".toList) :
    ∀ c ∈ name, ¬ isDecoded c = true := by
  have hall : name.all (fun c => !isDecoded c) = true := by
    rcases h with rfl | rfl | rfl <;> decide
  intro c hc hdecoded
  have hplain := List.all_eq_true.1 hall c hc
  rw [hdecoded] at hplain
  cases hplain

/-- Texts without decoded characters were there as they are. -/
theorem same_before {z z' : Text} (hz : ∀ c ∈ z, ¬ isDecoded c = true) (h : Becomes Decodes z' z) :
    z' = z := by
  rw [← List.append_nil z] at h
  rcases h.of_kept (fun t new ht => (decodes_single ht).2) hz with ⟨u, rfl, hnil⟩
  rw [hnil.of_nil fun t new ht => (decodes_single ht).2, List.append_nil]

/-- An entity that is decoded was spelled, or its `&` was. -/
theorem entity_before {z z' : Text} (hz : Entity z) (h : Becomes Decodes z' z) :
    Entity z' ∨ Escaped z' := by
  rcases entity_names hz with ⟨name, rfl, hname⟩
  have hplain := name_not_decoded hname
  rcases h.of_cons (fun t new ht => (decodes_single ht).2) with ⟨u, rfl, hu⟩ | ⟨t, u, rfl, ht, _, hu⟩
  · rw [same_before hplain hu]
    exact Or.inl hz
  · rw [same_before hplain hu]
    refine Or.inr ⟨name, hz, ?_⟩
    rcases ht with ⟨_, hnew⟩ | ⟨_, hnew⟩ | ⟨rfl, _⟩
    · cases hnew
    · cases hnew
    · rfl

theorem decodes_length {t new : Text} (h : Decodes t new) : new.length ≤ 1 := by
  rcases (decodes_single h).2 with ⟨c, rfl, _⟩
  exact Nat.le_refl 1

/-- Decoding puts no name of an entity together. -/
theorem prefix_decode {w : Text} (hw : ∀ c ∈ w, ¬ isDecoded c = true) {u : Text} (h : w <+: decode u) :
    w <+: u := by
  rcases h with ⟨rest, hrest⟩
  have hbecomes := becomes_decode u
  rw [← hrest] at hbecomes
  rcases hbecomes.of_kept (fun t new ht => (decodes_single ht).2) hw with ⟨u', rfl, _⟩
  exact List.prefix_append _ _

/-- An entity at the head of a text, or behind it. -/
theorem entity_head_or_behind {c : Char} {w : Text} (h : Has Entity (c :: decode w)) :
    (c = '&' ∧ ∃ name, Entity ('&' :: name) ∧ name <+: w) ∨ Has Entity (decode w) := by
  rcases h with ⟨z, hz, hinfix⟩
  rcases List.infix_cons_iff.1 hinfix with hprefix | hbehind
  · left
    rcases entity_names hz with ⟨name, rfl, hname⟩
    rcases List.cons_prefix_cons.1 hprefix with ⟨rfl, hrest⟩
    have hplain := name_not_decoded hname
    exact ⟨rfl, name, hz, prefix_decode hplain hrest⟩
  · exact Or.inr ⟨z, hz, hbehind⟩

/-- Where an entity shows, its `&` was spelled as one. -/
theorem has_escaped_of_decode {u : Text} (h : Has Entity (decode u)) : Has Escaped u := by
  fun_induction decode u with
  | case1 rest ih =>
      rcases entity_head_or_behind h with ⟨hc, _⟩ | hbehind
      · exact absurd hc (by decide)
      · exact (ih hbehind).of_within (List.suffix_append "&lt;".toList rest).isInfix
  | case2 rest ih =>
      rcases entity_head_or_behind h with ⟨hc, _⟩ | hbehind
      · exact absurd hc (by decide)
      · exact (ih hbehind).of_within (List.suffix_append "&gt;".toList rest).isInfix
  | case3 rest ih =>
      rcases entity_head_or_behind h with ⟨_, name, hname, more, rfl⟩ | hbehind
      · exact ⟨"&amp;".toList ++ name, ⟨name, hname, rfl⟩, [], more, by simp⟩
      · exact (ih hbehind).of_within (List.suffix_append "&amp;".toList rest).isInfix
  | case4 c rest hlt hgt hamp ih =>
      rcases entity_head_or_behind h with ⟨hc, name, hname, more, rfl⟩ | hbehind
      · -- the entity would have been decoded
        rcases entity_names hname with ⟨name', heq, hnames⟩
        rcases List.cons.inj heq with ⟨_, rfl⟩
        rcases hnames with rfl | rfl | rfl
        · exact (hlt more hc rfl).elim
        · exact (hgt more hc rfl).elim
        · exact (hamp more hc rfl).elim
      · exact (ih hbehind).of_within (List.suffix_cons c rest).isInfix
  | case5 =>
      rcases h with ⟨z, hz, hinfix⟩
      rcases entity_names hz with ⟨name, rfl, _⟩
      exact absurd (List.infix_nil.1 hinfix) (List.cons_ne_nil _ _)

theorem script_not_decoded {z : Text} (h : Script z) : ∀ c ∈ z, ¬ isDecoded c = true := by
  intro c hc hdecoded
  have hchar := script_chars h c hc
  simp only [isDecoded, Bool.or_eq_true, decide_eq_true_eq] at hdecoded
  rcases hdecoded with (rfl | rfl) | rfl <;> exact absurd hchar (by decide)

theorem handler_not_decoded {z : Text} (h : Handler z) : ∀ c ∈ z, ¬ isDecoded c = true := by
  intro c hc hdecoded
  have hchar := handler_chars h c hc
  simp only [isDecoded, Bool.or_eq_true, decide_eq_true_eq] at hdecoded
  rcases hdecoded with (rfl | rfl) | rfl <;> exact absurd hchar (by decide)

/-! ## Decoding in parts -/

/-- The characters of entities behind their `&`. -/
def isNameChar (c : Char) : Bool := "ltgamp;".toList.contains c

theorem name_chars {name : Text}
    (h : name = "lt;".toList ∨ name = "gt;".toList ∨ name = "amp;".toList) :
    ∀ c ∈ name, isNameChar c = true := by
  rcases h with rfl | rfl | rfl <;> exact List.all_eq_true.1 (by decide)

theorem decode_cons {c : Char} {rest : Text} (h : c = '&' → ∀ name,
    name = "lt;".toList ∨ name = "gt;".toList ∨ name = "amp;".toList → ¬ name <+: rest) :
    decode (c :: rest) = c :: decode rest := by
  rw [decode]
  · rintro more rfl rfl
    exact h rfl _ (Or.inl rfl) ⟨more, rfl⟩
  · rintro more rfl rfl
    exact h rfl _ (Or.inr (Or.inl rfl)) ⟨more, rfl⟩
  · rintro more rfl rfl
    exact h rfl _ (Or.inr (Or.inr rfl)) ⟨more, rfl⟩

theorem decode_plain {w : Text} (hw : '&' ∉ w) (rest : Text) :
    decode (w ++ rest) = w ++ decode rest := by
  induction w with
  | nil => rfl
  | cons c w ih =>
      rcases not_or.1 (fun hmem => hw (List.mem_cons.2 hmem)) with ⟨hc, hrest⟩
      rw [List.cons_append, decode_cons fun heq => absurd heq.symm hc, ih hrest, List.cons_append]

theorem decode_eq_self {u : Text} (h : ';' ∉ u) : decode u = u := by
  fun_induction decode u with
  | case1 rest _ => exact absurd (by simp) h
  | case2 rest _ => exact absurd (by simp) h
  | case3 rest _ => exact absurd (by simp) h
  | case4 c rest _ _ _ ih => rw [ih fun hmem => h (List.mem_cons_of_mem c hmem)]
  | case5 => rfl

/-- A text that does not go on like an entity is decoded apart from what stands before it. -/
theorem decode_append {b : Text} (hb : ∀ c ∈ b.head?, ¬ isNameChar c = true) (a : Text) :
    decode (a ++ b) = decode a ++ decode b := by
  fun_induction decode a with
  | case1 rest ih => exact congrArg ('<' :: ·) ih
  | case2 rest ih => exact congrArg ('>' :: ·) ih
  | case3 rest ih => exact congrArg ('&' :: ·) ih
  | case4 c rest hlt hgt hamp ih =>
      rw [List.cons_append, decode_cons, ih, List.cons_append]
      rintro rfl name hname hprefix
      rcases List.prefix_or_prefix_of_prefix hprefix (List.prefix_append rest b) with
        ⟨more, hmore⟩ | ⟨more, hmore⟩
      · rcases hname with rfl | rfl | rfl
        · exact (hlt more rfl hmore.symm).elim
        · exact (hgt more rfl hmore.symm).elim
        · exact (hamp more rfl hmore.symm).elim
      · -- the rest of the name would begin what stands behind
        cases more with
        | nil =>
            rw [List.append_nil] at hmore
            subst hmore
            rcases hname with rfl | rfl | rfl
            · exact (hlt [] rfl rfl).elim
            · exact (hgt [] rfl rfl).elim
            · exact (hamp [] rfl rfl).elim
        | cons d more =>
            rw [← hmore, List.prefix_append_right_inj] at hprefix
            rcases hprefix with ⟨rest', rfl⟩
            refine hb d rfl (name_chars hname d ?_)
            rw [← hmore]
            exact List.mem_append_right _ List.mem_cons_self
  | case5 => rfl

theorem decode_of_decodes {t : Text} {c : Char} (h : Decodes t [c]) (rest : Text) :
    decode (t ++ rest) = c :: decode rest := by
  rcases h with ⟨rfl, hc⟩ | ⟨rfl, hc⟩ | ⟨rfl, hc⟩
  all_goals
    cases hc
    rfl

/-! ## Entities and what is taken out -/

theorem script_closed : ClosedBy Script ':' := by
  intro z hz
  have hlast := (script_ends hz).2
  rcases List.eq_nil_or_concat z with rfl | ⟨z', c, rfl⟩
  · cases hlast
  · rw [List.concat_eq_append, List.getLast?_concat] at hlast
    cases hlast
    refine ⟨z', List.concat_eq_append, ?_⟩
    intro hmem
    -- `javascript` has no colon
    have hmap : (z'.concat ':').map Char.toLower = javascript := hz
    rw [List.concat_eq_append, List.map_append] at hmap
    have hword : z'.map Char.toLower = "javascript".toList :=
      (List.append_inj' (hmap.trans (show javascript = "javascript".toList ++ [':'] from rfl)) rfl).1
    have hcolon : ':' ∈ z'.map Char.toLower := List.mem_map.2 ⟨':', hmem, by decide⟩
    rw [hword] at hcolon
    exact absurd hcolon (by decide)

theorem handler_closed : ClosedBy Handler '=' := by
  rintro z ⟨o, n, word, space, rfl, ho, hn, _, hword, hspace⟩
  refine ⟨o :: n :: (word ++ space), by simp, ?_⟩
  intro hmem
  have hcases : ('=' = o ∨ '=' = n) ∨ '=' ∈ word ∨ '=' ∈ space := by
    simpa only [List.mem_cons, List.mem_append, or_assoc] using hmem
  rcases hcases with (rfl | rfl) | hmem | hmem
  · exact absurd ho (by decide)
  · exact absurd hn (by decide)
  · exact absurd (hword _ hmem) (by decide)
  · exact absurd (hspace _ hmem) (by decide)

/-- What is taken out has no part in an entity. -/
structure TakenOut (M : Text → Prop) (e : Char) : Prop where
  closed : ClosedBy M e
  foreign : Foreign Decodes (fun c => isDecoded c = true) (· = ';') M e
  starts : ∀ t, M t → ∀ c ∈ t.head?, ¬ isNameChar c = true
  ends : ¬ isNameChar e = true ∧ ¬ isDecoded e = true

/-- A text that has no `;` in front of its end and no `&` behind its head. -/
structure Spelling (z : Text) : Prop where
  head : ∀ c ∈ z.head?, ¬ isNameChar c = true
  front : ∀ x y, z = x ++ y → y ≠ [] → ';' ∉ x
  back : ∀ x y, z = x ++ y → x ≠ [] → '&' ∉ y

theorem decodes_ends {e : Char} (he : ¬ isNameChar e = true) (hamp : e ≠ '&') (t new : Text)
    (h : Decodes t new) : e ∉ t ∧ ∃ f ∈ t.getLast?, f = ';' := by
  have hword : ∀ name : Text, name = "lt;".toList ∨ name = "gt;".toList ∨ name = "amp;".toList →
      e ∉ '&' :: name := by
    intro name hname hmem
    rcases List.mem_cons.1 hmem with heq | hmem
    · exact hamp heq
    · exact he (name_chars hname e hmem)
  rcases h with ⟨rfl, _⟩ | ⟨rfl, _⟩ | ⟨rfl, _⟩
  · exact ⟨hword _ (Or.inl rfl), ';', by decide, rfl⟩
  · exact ⟨hword _ (Or.inr (Or.inl rfl)), ';', by decide, rfl⟩
  · exact ⟨hword _ (Or.inr (Or.inr rfl)), ';', by decide, rfl⟩

theorem not_first {c first : Char}
    (hfirst : "ltgamp;".toList.all (fun c => c.toLower ≠ first) = true) (hc : isNameChar c = true) :
    c.toLower ≠ first :=
  of_decide_eq_true (List.all_eq_true.1 hfirst c (List.contains_iff_mem.1 hc))

theorem taken_script : TakenOut Script ':' where
  closed := script_closed
  foreign :=
    { single := fun t new h => (decodes_single h).2
      ends := decodes_ends (by decide) (by decide)
      plain := by
        intro z hz c hc
        refine ⟨script_not_decoded hz c hc, ?_⟩
        rintro rfl
        exact absurd (script_chars hz _ hc) (by decide) }
  starts := by
    intro t ht c hc hname
    have hhead := (script_ends ht).1
    rw [Option.mem_def.1 hc] at hhead
    exact not_first (by decide) hname (Option.some.inj hhead)
  ends := ⟨by decide, by decide⟩

theorem taken_handler : TakenOut Handler '=' where
  closed := handler_closed
  foreign :=
    { single := fun t new h => (decodes_single h).2
      ends := decodes_ends (by decide) (by decide)
      plain := by
        intro z hz c hc
        refine ⟨handler_not_decoded hz c hc, ?_⟩
        rintro rfl
        exact absurd (handler_chars hz _ hc) (by decide) }
  starts := by
    intro t ht c hc hname
    have hhead := (handler_ends ht).1
    rw [Option.mem_def.1 hc] at hhead
    exact not_first (by decide) hname (Option.some.inj hhead)
  ends := ⟨by decide, by decide⟩

theorem spelling_entity {z : Text} (h : Entity z) : Spelling z := by
  rcases entity_names h with ⟨name, rfl, hname⟩
  have hamp : '&' ∉ name := fun hmem => name_not_decoded hname _ hmem (by decide)
  refine ⟨?_, ?_, ?_⟩
  · rintro c ⟨⟩
    decide
  · intro x y hsplit hy hmem
    -- the `;` is the last character
    have hclosed : ClosedBy (fun z => z = '&' :: name) ';' := by
      rintro z rfl
      rcases hname with rfl | rfl | rfl
      · exact ⟨"&lt".toList, rfl, by decide⟩
      · exact ⟨"&gt".toList, rfl, by decide⟩
      · exact ⟨"&amp".toList, rfl, by decide⟩
    exact hclosed.over hy hmem hsplit.symm
  · intro x y hsplit hx hmem
    cases x with
    | nil => exact hx rfl
    | cons c x =>
        rcases List.cons.inj hsplit with ⟨-, rfl⟩
        exact hamp (List.mem_append_right x hmem)

/-- What is taken out has no `;` and no `&` at all. -/
theorem TakenOut.spelling {M : Text → Prop} {e : Char} (hM : TakenOut M e) {z : Text} (h : M z) :
    Spelling z := by
  refine ⟨fun c hc => hM.starts z h c hc, ?_, ?_⟩
  · rintro x y rfl - hmem
    exact (hM.foreign.plain _ h _ (List.mem_append_left y hmem)).2 rfl
  · rintro x y rfl - hmem
    exact (hM.foreign.plain _ h _ (List.mem_append_right x hmem)).1 (by decide)

section TakenOut

variable {M : Text → Prop} {e : Char} {a b u v y z : Text}

/-- What is broken is broken after decoding, too. -/
theorem TakenOut.broken_decode (hM : TakenOut M e) (hz : Spelling z) (h : Broken M z y) (b : Text) :
    ∃ y', y' <+: decode (y ++ b) ∧ Broken M z y' := by
  rcases h with ⟨a, _, rfl, u₁, t, u₂, z₁, z₂, rfl, rfl, hz₁, hz₂, hfirst, ht, hlast⟩
  have hstops : ';' ∉ u₁ := by
    intro hmem
    rcases hfirst.mem hmem with hmem | ⟨t', ht', hmem⟩
    · exact hz.front z₁ z₂ rfl hz₂ hmem
    · exact (hM.foreign.plain t' ht' _ hmem).2 rfl
  have hamp : '&' ∉ u₂ := by
    intro hmem
    rcases hlast.mem hmem with hmem | ⟨t', ht', hmem⟩
    · exact hz.back z₁ z₂ rfl hz₁ hmem
    · exact (hM.foreign.plain t' ht' _ hmem).1 (by decide)
  have hhead : ∀ c ∈ (u₁ ++ (t ++ (u₂ ++ b))).head?, ¬ isNameChar c = true := by
    intro c hc
    have hne : u₁ ≠ [] := by
      rintro rfl
      exact hz₁ (hfirst.of_nil hM.closed)
    rw [List.head?_append_of_ne_nil _ hne] at hc
    rcases hfirst.head hM.closed hc with hc | ⟨t', ht', hc⟩
    · refine hz.head c ?_
      rwa [List.head?_append_of_ne_nil _ hz₁]
    · exact hM.starts t' ht' c hc
  rcases hM.closed t ht.1 with ⟨t', rfl, _⟩
  have htail : ∀ c ∈ (e :: (u₂ ++ b)).head?, ¬ isNameChar c = true := by
    rintro c ⟨⟩
    exact hM.ends.1
  have he : e ≠ '&' := by
    rintro rfl
    exact hM.ends.2 (by decide)
  have htstops : ';' ∉ t' := fun hmem =>
    (hM.foreign.plain _ ht.1 _ (List.mem_append_left [e] hmem)).2 rfl
  have hfront : decode (u₁ ++ t') = u₁ ++ t' := decode_eq_self (by simp [hstops, htstops])
  have hdecode : decode (a ++ (u₁ ++ (t' ++ [e] ++ u₂)) ++ b) =
      decode a ++ (u₁ ++ (t' ++ [e] ++ u₂)) ++ decode b := by
    calc
      decode (a ++ (u₁ ++ (t' ++ [e] ++ u₂)) ++ b)
          = decode (a ++ (u₁ ++ (t' ++ [e] ++ (u₂ ++ b)))) := by simp
      _ = decode a ++ decode ((u₁ ++ t') ++ e :: (u₂ ++ b)) := by
            rw [decode_append hhead]
            simp
      _ = decode a ++ ((u₁ ++ t') ++ e :: (u₂ ++ decode b)) := by
            rw [decode_append htail, hfront, decode_cons (fun heq => absurd heq he),
              decode_plain hamp]
      _ = decode a ++ (u₁ ++ (t' ++ [e] ++ u₂)) ++ decode b := by simp
  have ha := becomes_decode a
  have ha₁ := ha.append (.refl u₁)
  refine ⟨decode a ++ (u₁ ++ (t' ++ [e] ++ u₂)), ?_, decode a, _, rfl, u₁, t' ++ [e], u₂, z₁, z₂,
    rfl, rfl, hz₁, hz₂, hM.foreign.outside_after ha hfirst, hM.foreign.longest_after ha₁ ht,
    hM.foreign.outside_after (ha₁.append (.refl _)) hlast⟩
  rw [hdecode]
  exact List.prefix_append _ _

theorem TakenOut.amp_not_mem (hM : TakenOut M e) (h : Outside M a u v) (hv : '&' ∉ v) : '&' ∉ u := by
  intro hmem
  rcases h.mem hmem with hmem | ⟨t, ht, hmem⟩
  · exact hv hmem
  · exact (hM.foreign.plain t ht _ hmem).1 (by decide)

theorem TakenOut.head_decode (hM : TakenOut M e) (h : Outside M a u v) (hu : u ≠ [])
    (hv : ∀ c ∈ v.head?, ¬ isNameChar c = true) (b : Text) :
    ∀ c ∈ (u ++ b).head?, ¬ isNameChar c = true := by
  intro c hc
  rw [List.head?_append_of_ne_nil _ hu] at hc
  rcases h.head hM.closed hc with hc | ⟨t, ht, hc⟩
  · exact hv c hc
  · exact hM.starts t ht c hc

/-- An entity that is read is broken, or there in one piece, which is decoded. -/
theorem TakenOut.entity_decode (hM : TakenOut M e) {t m : Text} {c : Char} (ht : Decodes t [c])
    (h : Outside M a u (t ++ m)) :
    (∃ x w, u = x ++ w ∧ BrokenAt M a t x) ∨
      ∃ g g' w, u = g ++ (t ++ (g' ++ w)) ∧ '&' ∉ g ∧ '&' ∉ g' ∧
        Outside M (a ++ (g ++ (t ++ g'))) w m ∧
        ∀ a', Becomes Decodes a a' → Outside M a' (g ++ c :: g') [c] := by
  rcases h.split with ⟨x, w, rfl, hx, hw⟩
  rcases hx.whole_or_broken hM.closed (decodes_single ht).1 with ⟨g, g', rfl, hg, hg'⟩ | hbroken
  · refine Or.inr ⟨g, g', w, by simp, hM.amp_not_mem hg List.not_mem_nil,
      hM.amp_not_mem hg' List.not_mem_nil, hw, ?_⟩
    intro a' ha
    have hc : e ∉ [c] := by
      intro hmem
      rcases (decodes_single ht).2 with ⟨d, hd, hdecoded⟩
      rw [hd] at hmem
      rw [List.mem_singleton.1 hmem] at hM
      exact hM.ends.2 hdecoded
    have hone : Becomes Decodes t [c] := by
      have hswap := Becomes.swap ht .nil
      rwa [List.append_nil] at hswap
    have hbehind := hM.foreign.outside_after (ha.append ((Becomes.refl g).append hone)) hg'
    rw [← List.append_assoc] at hbehind
    exact (hM.foreign.outside_after ha hg).append (hbehind.keeps hM.closed hc)
  · exact Or.inl ⟨x, w, rfl, hbroken⟩

/-- `y` ends in an entity with `&amp;` for its `&`, which is broken behind the `&amp;`. -/
theorem TakenOut.behind_amp_decode (hM : TakenOut M e) {a u₁ t u₂ m z₂ : Text}
    (hname : Entity ('&' :: (m ++ z₂))) (hz₂ : z₂ ≠ []) (ht : Longest M (a ++ u₁) t)
    (hfirst : Outside M a u₁ ("&amp;".toList ++ m)) (hlast : Outside M (a ++ u₁ ++ t) u₂ z₂)
    (b : Text) :
    (∃ x w, u₁ = x ++ w ∧ BrokenAt M a "&amp;".toList x) ∨
      ∃ y, y <+: decode (a ++ (u₁ ++ (t ++ u₂)) ++ b) ∧ Broken M ('&' :: (m ++ z₂)) y := by
  have hamp : Decodes "&amp;".toList ['&'] := Or.inr (Or.inr ⟨rfl, rfl⟩)
  rcases hM.entity_decode hamp hfirst with hbroken | ⟨g, g', w, rfl, hg, hg', hw, hread⟩
  · exact Or.inl hbroken
  · rcases entity_names hname with ⟨name, heq, hnames⟩
    rcases List.cons.inj heq with ⟨-, rfl⟩
    have hplain : '&' ∉ m ++ z₂ := fun hmem => name_not_decoded hnames _ hmem (by decide)
    rcases not_or.1 (fun hmem => hplain (List.mem_append.2 hmem)) with ⟨hm, hz⟩
    have ht' : '&' ∉ t := fun hmem => (hM.foreign.plain t ht.1 _ hmem).1 (by decide)
    have hrest : '&' ∉ g' ++ (w ++ (t ++ u₂)) := by
      simp only [List.mem_append, not_or]
      exact ⟨hg', hM.amp_not_mem hw hm, ht', hM.amp_not_mem hlast hz⟩
    have hhead := hM.head_decode hfirst (by simp) (by rintro c ⟨⟩; decide) ((t ++ u₂) ++ b)
    have hdecode : decode (a ++ (g ++ ("&amp;".toList ++ (g' ++ w)) ++ (t ++ u₂)) ++ b) =
        decode a ++ (g ++ '&' :: (g' ++ w) ++ (t ++ u₂)) ++ decode b := by
      calc
        decode (a ++ (g ++ ("&amp;".toList ++ (g' ++ w)) ++ (t ++ u₂)) ++ b)
            = decode (a ++ (g ++ ("&amp;".toList ++ (g' ++ w)) ++ ((t ++ u₂) ++ b))) := by
              simp only [List.append_assoc]
        _ = decode a ++ decode (g ++ ("&amp;".toList ++ (g' ++ (w ++ (t ++ u₂)) ++ b))) := by
              rw [decode_append hhead]
              simp only [List.append_assoc]
        _ = decode a ++ (g ++ '&' :: (g' ++ (w ++ (t ++ u₂)) ++ decode b)) := by
              rw [decode_plain hg, decode_of_decodes hamp, decode_plain hrest]
        _ = decode a ++ (g ++ '&' :: (g' ++ w) ++ (t ++ u₂)) ++ decode b := by simp
    have ha := becomes_decode a
    have hctx := ha.append ((Becomes.refl g).append (.swap hamp (.refl g')))
    have hctx' := hctx.append (.refl w)
    simp only [List.append_assoc, List.cons_append] at hctx'
    have hfirst' := (hread _ ha).append (hM.foreign.outside_after hctx hw)
    simp only [List.append_assoc, List.cons_append] at hfirst'
    refine Or.inr ⟨decode a ++ (g ++ '&' :: (g' ++ w) ++ (t ++ u₂)), ?_, decode a, _, rfl,
      g ++ '&' :: (g' ++ w), t, u₂, '&' :: m, z₂, rfl, rfl, List.cons_ne_nil _ _, hz₂, hfirst',
      hM.foreign.longest_after hctx' ht, hM.foreign.outside_after (hctx'.append (.refl t)) hlast⟩
    rw [hdecode]
    exact List.prefix_append _ _

/-- An entity that is spelled with another one for its `&` is broken after decoding, or that other one
is. -/
theorem TakenOut.escaped_decode (hM : TakenOut M e) (hz : Escaped z) (h : Broken M z y) (b : Text) :
    ∃ z' y', Entity z' ∧ y' <+: decode (y ++ b) ∧ Broken M z' y' := by
  rcases hz with ⟨name, hname, rfl⟩
  rcases h with ⟨a, _, rfl, u₁, t, u₂, z₁, z₂, rfl, hsplit, hz₁, hz₂, hfirst, ht, hlast⟩
  have hinner : ∀ y b', y ++ b' = a ++ (u₁ ++ (t ++ u₂)) ++ b → Broken M "&amp;".toList y →
      ∃ z' y', Entity z' ∧ y' <+: decode (a ++ (u₁ ++ (t ++ u₂)) ++ b) ∧ Broken M z' y' := by
    intro y b' hy hbroken
    have hamp : Entity "&amp;".toList := Or.inr (Or.inr (List.map_id _))
    rcases hM.broken_decode (spelling_entity hamp) hbroken b' with ⟨y', hprefix, hbroken'⟩
    rw [hy] at hprefix
    exact ⟨_, y', hamp, hprefix, hbroken'⟩
  have hwhole : (∃ m, z₁ = "&amp;".toList ++ m ∧ name = m ++ z₂) ∨
      ∃ m, "&amp;".toList = z₁ ++ m ∧ m ≠ [] ∧ z₂ = m ++ name := by
    rcases List.append_eq_append_iff.1 hsplit with ⟨m, hm, hn⟩ | ⟨m, hm, hn⟩
    · exact Or.inl ⟨m, hm, hn⟩
    · by_cases hnil : m = []
      · subst hnil
        exact Or.inl ⟨[], by rw [hm, List.append_nil, List.append_nil], hn.symm⟩
      · exact Or.inr ⟨m, hm, hnil, hn⟩
  rcases hwhole with ⟨m, rfl, rfl⟩ | ⟨m, hm, hnil, rfl⟩
  · -- the break is behind `&amp;`
    rcases hM.behind_amp_decode hname hz₂ ht hfirst hlast b with ⟨x, w, rfl, hbroken⟩ | ⟨y, hy, hbroken⟩
    · exact hinner (a ++ x) (w ++ (t ++ u₂) ++ b) (by simp) ⟨a, x, rfl, hbroken⟩
    · exact ⟨_, y, hname, hy, hbroken⟩
  · -- the break is in it
    rcases hlast.split with ⟨x, w, rfl, hx, hw⟩
    refine hinner (a ++ (u₁ ++ (t ++ x))) (w ++ b) (by simp) ⟨a, _, rfl, ?_⟩
    exact ⟨u₁, t, x, z₁, m, rfl, hm, hz₁, hnil, hfirst, ht, hx⟩

/-- Nothing that is taken out begins like the name of an entity. -/
theorem TakenOut.prefix_of_names (hM : TakenOut M e) {name : Text}
    (hname : ∀ c ∈ name, isNameChar c = true) (h : Outside M a u v) (hu : name <+: u) : name <+: v := by
  induction name generalizing a u v with
  | nil => exact List.nil_prefix
  | cons c name ih =>
      rcases List.forall_mem_cons.1 hname with ⟨hc, hrest⟩
      cases h with
      | nil => exact hu
      | keep _ h =>
          rcases List.cons_prefix_cons.1 hu with ⟨rfl, hbehind⟩
          exact List.cons_prefix_cons.2 ⟨rfl, ih hrest h hbehind⟩
      | @skip _ t u v ht _ =>
          cases t with
          | nil => exact absurd (hM.closed.mem ht.1) List.not_mem_nil
          | cons d t =>
              rw [(List.cons_prefix_cons.1 hu).1] at hc
              exact absurd hc (hM.starts _ ht.1 d rfl)

theorem TakenOut.outside_entity (hM : TakenOut M e) {t rest : Text} {c : Char} (hspelled : Entity t)
    (ht : Decodes t [c])
    (ih : ∀ {a u : Text}, (∀ z y, Entity z → y <+: a ++ u → ¬ Broken M z y) →
      ∀ {a' : Text}, Becomes Decodes a a' → Outside M a u rest →
        Outside M a' (decode u) (decode rest))
    (hnone : ∀ z y, Entity z → y <+: a ++ u → ¬ Broken M z y) {a' : Text}
    (ha : Becomes Decodes a a') (h : Outside M a u (t ++ rest)) :
    Outside M a' (decode u) (c :: decode rest) := by
  rcases hM.entity_decode ht h with ⟨x, w, rfl, hbroken⟩ | ⟨g, g', w, rfl, hg, hg', hw, hread⟩
  · refine absurd ⟨a, x, rfl, hbroken⟩ (hnone t (a ++ x) hspelled ?_)
    rw [← List.append_assoc]
    exact List.prefix_append _ _
  · have hctx := ha.append ((Becomes.refl g).append (.swap ht (.refl g')))
    have hrest := ih (by simpa only [List.append_assoc] using hnone) hctx hw
    rw [decode_plain hg, decode_of_decodes ht, decode_plain hg']
    have happend := (hread a' ha).append hrest
    simpa only [List.append_assoc, List.cons_append, List.nil_append] using happend

/-- Where no entity is broken, reading and decoding can be exchanged. -/
theorem TakenOut.outside_decode (hM : TakenOut M e)
    (hnone : ∀ z y, Entity z → y <+: a ++ u → ¬ Broken M z y) {a' : Text}
    (ha : Becomes Decodes a a') (h : Outside M a u v) : Outside M a' (decode u) (decode v) := by
  have hword : ∀ word : Text, Spelled id word word := fun word => List.map_id word
  fun_induction decode v generalizing a a' u with
  | case1 rest ih => exact hM.outside_entity (Or.inl (hword _)) (Or.inl ⟨rfl, rfl⟩) ih hnone ha h
  | case2 rest ih =>
      exact hM.outside_entity (Or.inr (Or.inl (hword _))) (Or.inr (Or.inl ⟨rfl, rfl⟩)) ih hnone ha h
  | case3 rest ih =>
      exact hM.outside_entity (Or.inr (Or.inr (hword _))) (Or.inr (Or.inr ⟨rfl, rfl⟩)) ih hnone ha h
  | case4 c rest hlt hgt hamp ih =>
      rcases h.of_cons with ⟨g, w, rfl, hg, hc, hrest⟩
      have hplain := hM.amp_not_mem hg List.not_mem_nil
      have hdecode : decode (g ++ c :: w) = g ++ c :: decode w := by
        rw [decode_plain hplain, decode_cons]
        rintro rfl name hname hprefix
        have hread := hM.prefix_of_names (name_chars hname) hrest hprefix
        rcases hread with ⟨more, rfl⟩
        rcases hname with rfl | rfl | rfl
        · exact (hlt more rfl rfl).elim
        · exact (hgt more rfl rfl).elim
        · exact (hamp more rfl rfl).elim
      rw [hdecode]
      have hctx : Becomes Decodes (a ++ g ++ [c]) (a' ++ g ++ [c]) :=
        (ha.append (.refl g)).append (.refl [c])
      have hbehind := ih (by simpa using hnone) hctx hrest
      refine (hM.foreign.outside_after ha hg).append (.keep ?_ hbehind)
      intro k hsuffix hmatch
      have hdecoded : ∀ d ∈ k, ¬ isDecoded d = true := fun d hd =>
        (hM.foreign.plain _ hmatch d (List.mem_append_left [c] hd)).1
      exact hc k ((ha.append (.refl g)).suffix_of hM.foreign.single hsuffix hdecoded) hmatch
  | case5 =>
      have hplain := hM.amp_not_mem h List.not_mem_nil
      have hself : decode u = u := by
        have hdecode := decode_plain hplain []
        rwa [List.append_nil, decode, List.append_nil] at hdecode
      rw [hself]
      exact hM.foreign.outside_after ha h

theorem TakenOut.kind_decode (hM : TakenOut M e) {K : Text → Prop} (hK : ∀ z, K z → Spelling z)
    (hz : Entity z ∨ Escaped z ∨ K z) (h : Broken M z y) (b : Text) :
    ∃ z' y', (Entity z' ∨ K z') ∧ y' <+: decode (y ++ b) ∧ Broken M z' y' := by
  rcases hz with hz | hz | hz
  · rcases hM.broken_decode (spelling_entity hz) h b with ⟨y', hy, hbroken⟩
    exact ⟨z, y', Or.inl hz, hy, hbroken⟩
  · rcases hM.escaped_decode hz h b with ⟨z', y', hz', hy, hbroken⟩
    exact ⟨z', y', Or.inl hz', hy, hbroken⟩
  · rcases hM.broken_decode (hK z hz) h b with ⟨y', hy, hbroken⟩
    exact ⟨z, y', Or.inr hz, hy, hbroken⟩

end TakenOut

end Pipes
end PaymentRail
