import PaymentRail.Pipes.SanitizePipe

/-!
# Settled — what the replacements of `stripHtml` leave behind

Each replacement of `stripHtml` is made once.  This module says exactly when the text that comes out has
something to replace again, in terms of the texts in between.

- `decode_eq` : decoding one entity after the other is decoding them all at once
- `has_entity_sanitizeText`, `has_script_sanitizeText`, `has_handler_sanitizeText` : where each of them
  comes from
- `clean_and_same_iff_settled`
-/

namespace PaymentRail
namespace Pipes

open Strings Strings.Replace

/-! ## Angle brackets -/

def isAngle (c : Char) : Bool := c = '<' || c = '>'

/-- A tag is there when a `<` stands somewhere before a `>`. -/
theorem has_tag_iff (u : Text) : Has Tag u ↔ List.Sublist ['<', '>'] u := by
  constructor
  · rintro ⟨z, ⟨inside, rfl, _⟩, hinfix⟩
    have hpair : List.Sublist ['<', '>'] ('<' :: (inside ++ ['>'])) :=
      (List.sublist_append_right inside ['>']).cons_cons '<'
    exact hpair.trans hinfix.sublist
  · intro h
    rcases List.cons_sublist_iff.1 h with ⟨a, b, rfl, hopen, hclose⟩
    have hmem : '>' ∈ b := List.singleton_sublist.1 hclose
    -- from that `<` to the first `>` behind it
    rcases List.append_of_mem hopen with ⟨a₁, a₂, rfl⟩
    rcases List.eq_append_cons_of_mem (List.mem_append_right a₂ hmem) with ⟨inside, rest, hb, hinside⟩
    refine ⟨'<' :: (inside ++ ['>']), ⟨inside, rfl, hinside⟩, a₁, rest, ?_⟩
    simp [hb]

theorem angles_filter (u : Text) :
    List.Sublist ['<', '>'] u ↔ List.Sublist ['<', '>'] (u.filter isAngle) := by
  constructor
  · exact fun h => h.filter isAngle
  · exact fun h => h.trans List.filter_sublist

theorem filter_isAngle_eq_nil {p : Char → Bool} (hp : p '<' = false ∧ p '>' = false) {z : Text}
    (h : ∀ c ∈ z, p c = true) : z.filter isAngle = [] := by
  refine List.filter_eq_nil_iff.2 ?_
  intro c hc hangle
  have hpc := h c hc
  simp only [isAngle, Bool.or_eq_true, decide_eq_true_eq] at hangle
  rcases hangle with rfl | rfl
  · rw [hp.1] at hpc
    exact Bool.false_ne_true hpc
  · rw [hp.2] at hpc
    exact Bool.false_ne_true hpc

/-! ## The characters of what is taken out -/

def isScriptChar (c : Char) : Bool := javascript.contains c.toLower

def isHandlerChar (c : Char) : Bool := isWordChar c || isWhiteSpace c || c = '='

theorem script_chars {z : Text} (h : Script z) : ∀ c ∈ z, isScriptChar c = true := by
  intro c hc
  refine List.contains_iff_mem.2 ?_
  rw [← h]
  exact List.mem_map_of_mem hc

theorem wordChar_of_toLower {c d : Char} (h : c.toLower = d) (hd : isWordChar d = true) :
    isWordChar c = true := by
  rcases eq_or_capital h with rfl | ⟨hlow, hhigh, _⟩
  · exact hd
  · have hupper : c.isUpper = true := by
      unfold Char.isUpper
      exact decide_eq_true ⟨hlow, hhigh⟩
    show (((c.isUpper || c.isLower) || c.isDigit) || decide (c = '_')) = true
    rw [hupper, Bool.true_or, Bool.true_or, Bool.true_or]

theorem handler_chars {z : Text} (h : Handler z) : ∀ c ∈ z, isHandlerChar c = true := by
  rcases h with ⟨o, n, word, space, rfl, ho, hn, _, hword, hspace⟩
  intro c hc
  simp only [List.mem_cons, List.mem_append, List.not_mem_nil, or_false] at hc
  unfold isHandlerChar
  rcases hc with rfl | rfl | hc | hc | rfl
  · simp [wordChar_of_toLower ho (by decide)]
  · simp [wordChar_of_toLower hn (by decide)]
  · simp [hword c hc]
  · simp [hspace c hc]
  · decide

/-! ## Decoding -/

/-- The entities of a text decoded, all at once. -/
def decode : Text → Text
  | '&' :: 'l' :: 't' :: ';' :: rest => '<' :: decode rest
  | '&' :: 'g' :: 't' :: ';' :: rest => '>' :: decode rest
  | '&' :: 'a' :: 'm' :: 'p' :: ';' :: rest => '&' :: decode rest
  | c :: rest => c :: decode rest
  | [] => []

/-- The text outside the tags of an input, decoded. -/
def shown (input : Text) : Text := decode (replaceAll tag [] input)

section Decoding

variable {name : Text} {new : Char}

/-- `&name;` replaced by a character. -/
def decodeOne (name : Text) (new : Char) (u : Text) : Text :=
  replaceAll (spelled id ('&' :: name) (List.cons_ne_nil _ _)) [new] u

theorem decodeOne_entity (rest : Text) :
    decodeOne name new ('&' :: (name ++ rest)) = new :: decodeOne name new rest := by
  have hmatch : (spelled id ('&' :: name) (List.cons_ne_nil _ _)).Matches ('&' :: name) := by
    rw [matches_spelled]
    exact List.map_id _
  rw [decodeOne, ← List.cons_append, replaceAll_taken hmatch]
  rfl

theorem decodeOne_plain {c : Char} {rest : Text} (h : c = '&' → ¬ name <+: rest) :
    decodeOne name new (c :: rest) = c :: decodeOne name new rest := by
  refine replaceAll_kept ?_
  refine if_neg ?_
  intro hspelled
  rw [List.map_id, List.length_cons, List.take_succ_cons] at hspelled
  rcases List.cons.inj hspelled with ⟨hc, hname⟩
  exact h hc (List.prefix_iff_eq_take.2 hname.symm)

theorem decodeOne_plains {w : Text} (hw : '&' ∉ w) (rest : Text) :
    decodeOne name new (w ++ rest) = w ++ decodeOne name new rest := by
  induction w with
  | nil => rfl
  | cons c w ih =>
      have hc : c ≠ '&' := fun heq => hw (heq ▸ List.mem_cons_self)
      rw [List.cons_append, decodeOne_plain (fun heq => absurd heq hc),
        ih fun hmem => hw (List.mem_cons_of_mem _ hmem), List.cons_append]

/-- Another entity is left for later. -/
theorem decodeOne_other {other rest : Text} (hother : '&' ∉ other) (hname : ¬ name <+: other ++ rest) :
    decodeOne name new ('&' :: (other ++ rest)) = '&' :: (other ++ decodeOne name new rest) := by
  rw [decodeOne_plain (fun _ => hname), decodeOne_plains hother]

/-- Decoding puts no entity together. -/
theorem prefix_decodeOne {w : Text} (hw : ∀ c ∈ w, c ≠ '&' ∧ c ≠ new) (u : Text) :
    w <+: decodeOne name new u ↔ w <+: u := by
  induction w generalizing u with
  | nil => simp
  | cons c w ih =>
      rcases List.forall_mem_cons.1 hw with ⟨⟨hamp, hnew⟩, hrest⟩
      cases u with
      | nil => rfl
      | cons d u =>
          by_cases hd : d = '&'
          · subst hd
            -- neither text begins with `c`
            have hu : ¬ (c :: w) <+: '&' :: u := fun h => hamp (List.cons_prefix_cons.1 h).1
            refine iff_of_false ?_ hu
            by_cases hname : name <+: u
            · rcases hname with ⟨more, rfl⟩
              rw [decodeOne_entity]
              exact fun h => hnew (List.cons_prefix_cons.1 h).1
            · rw [decodeOne_plain fun _ => hname]
              exact fun h => hamp (List.cons_prefix_cons.1 h).1
          · rw [decodeOne_plain fun heq => absurd heq hd, List.cons_prefix_cons, List.cons_prefix_cons,
              ih hrest]

end Decoding

/-- Decoding one entity after the other is decoding them all at once. -/
theorem decode_eq (u : Text) :
    decodeOne "amp;".toList '&' (decodeOne "gt;".toList '>' (decodeOne "lt;".toList '<' u)) =
      decode u := by
  fun_induction decode u with
  | case1 rest ih =>
      change decodeOne _ _ (decodeOne _ _ (decodeOne _ _ ('&' :: ("lt;".toList ++ rest)))) = _
      rw [decodeOne_entity, decodeOne_plain (fun h => absurd h (by decide)),
        decodeOne_plain (fun h => absurd h (by decide)), ih]
  | case2 rest ih =>
      change decodeOne _ _ (decodeOne _ _ (decodeOne _ _ ('&' :: ("gt;".toList ++ rest)))) = _
      rw [decodeOne_other (by decide) (by simp), decodeOne_entity,
        decodeOne_plain (fun h => absurd h (by decide)), ih]
  | case3 rest ih =>
      -- what is decoded last makes no entity that was looked for before
      change decodeOne _ _ (decodeOne _ _ (decodeOne _ _ ('&' :: ("amp;".toList ++ rest)))) = _
      rw [decodeOne_other (by decide) (by simp), decodeOne_other (by decide) (by simp),
        decodeOne_entity, ih]
  | case4 c rest hlt hgt hamp ih =>
      have hno : ∀ {name : Text}, (∀ more, c = '&' → rest = name ++ more → False) →
          c = '&' → ¬ name <+: rest := by
        rintro name hname hc ⟨more, hmore⟩
        exact hname more hc hmore.symm
      have hgtless : ∀ c ∈ "gt;".toList, c ≠ '&' ∧ c ≠ '<' := by simp
      have hampless : ∀ c ∈ "amp;".toList, c ≠ '&' ∧ c ≠ '<' ∧ c ≠ '>' := by simp
      rw [decodeOne_plain (hno hlt), decodeOne_plain, decodeOne_plain, ih]
      · intro hc
        rw [prefix_decodeOne (fun c h => ⟨(hampless c h).1, (hampless c h).2.2⟩),
          prefix_decodeOne (fun c h => ⟨(hampless c h).1, (hampless c h).2.1⟩)]
        exact hno hamp hc
      · intro hc
        rw [prefix_decodeOne hgtless]
        exact hno hgt hc
  | case5 => rfl

theorem replaceAll_entities (u : Text) :
    replaceAll ampEntity ['&'] (replaceAll gtEntity ['>'] (replaceAll ltEntity ['<'] u)) = decode u :=
  decode_eq u

theorem stripHtml_eq (input : Text) :
    stripHtml input = replaceAll handler [] (replaceAll script [] (shown input)) := by
  rw [shown, ← replaceAll_entities]
  simp only [stripHtml, stages, List.foldl_cons, List.foldl_nil, Stage.apply]

/-! ## What does not overlap -/

theorem script_matches : script.Matches = Script := matches_spelled _ _ _

/-- A text begins with one character, up to letter case, and ends in another. -/
def Ends (first last : Char) (z : Text) : Prop :=
  z.head?.map Char.toLower = some first ∧ z.getLast? = some last

section Ends

variable {first last first' last' : Char} {z t : Text}

theorem Ends.ne_nil (h : Ends first last z) : z ≠ [] := by
  rintro rfl
  cases h.1

/-- Neither of two texts has the last character of the other. -/
theorem Ends.clear {p q : Char → Bool} (hz : Ends first last z) (ht : Ends first' last' t)
    (hzchars : ∀ c ∈ z, p c = true) (htchars : ∀ c ∈ t, q c = true) (hlast : q last = false)
    (hlast' : p last' = false) : Clear z t := by
  constructor
  · intro f hf hmem
    rw [hz.2] at hf
    cases hf
    have hq := htchars last hmem
    rw [hlast] at hq
    exact Bool.false_ne_true hq
  · intro e he hmem
    rw [ht.2] at he
    cases he
    have hp := hzchars last' hmem
    rw [hlast'] at hp
    exact Bool.false_ne_true hp

theorem has_ends_trim_iff {Y : Text → Prop} (hY : ∀ z, Y z → Ends first last z)
    (hfirst : isWhiteSpace first = false) (hlast : isWhiteSpace last = false) (s : Text) :
    Has Y (trim s) ↔ Has Y s := by
  apply has_trim_iff
  intro z hz
  rcases hY z hz with ⟨hhead, hback⟩
  refine ⟨(hY z hz).ne_nil, ?_, ?_⟩
  · intro c hc
    rw [Option.mem_def.1 hc] at hhead
    exact not_space_of_toLower (Option.some.inj hhead) hfirst
  · intro c hc
    rw [hback] at hc
    cases hc
    exact hlast

end Ends

def isEntityChar (c : Char) : Bool := "&ltgamp;".toList.contains c

theorem entity_chars_ends {z : Text} (h : Entity z) :
    (∀ c ∈ z, isEntityChar c = true) ∧ Ends '&' ';' z := by
  have hword : ∀ word : Text, Spelled id word z → z = word := by
    intro word hspelled
    rw [← hspelled, List.map_id]
  rcases h with h | h | h
  all_goals
    rw [hword _ h]
    exact ⟨List.all_eq_true.1 (by decide), by decide, by decide⟩

theorem script_ends {z : Text} (h : Script z) : Ends 'j' ':' z := by
  have hhead : z.head?.map Char.toLower = javascript.head? := by
    rw [← List.head?_map, show z.map Char.toLower = javascript from h]
  have hlast : z.getLast?.map Char.toLower = javascript.getLast? := by
    rw [← List.getLast?_map, show z.map Char.toLower = javascript from h]
  rw [show javascript.head? = some 'j' from by decide] at hhead
  rw [show javascript.getLast? = some ':' from by decide] at hlast
  rcases Option.map_eq_some_iff.1 hlast with ⟨e, he, hcolon⟩
  refine ⟨hhead, ?_⟩
  -- a colon is no letter, so nothing else is a colon in another case
  rcases eq_or_capital hcolon with rfl | ⟨hlow, _, hsum⟩
  · exact he
  · have hcode : (':' : Char).toNat = 58 := by decide
    omega

theorem handler_ends {z : Text} (h : Handler z) : Ends 'o' '=' z := by
  rcases h with ⟨o, n, word, space, rfl, ho, _⟩
  refine ⟨congrArg some ho, ?_⟩
  rw [show o :: n :: (word ++ (space ++ ['='])) = (o :: n :: (word ++ space)) ++ ['='] from by simp,
    List.getLast?_concat]

theorem clear_entity_script {z t : Text} (hz : Entity z) (ht : Script t) : Clear z t := by
  rcases entity_chars_ends hz with ⟨hchars, hends⟩
  exact hends.clear (script_ends ht) hchars (script_chars ht) (by decide) (by decide)

theorem clear_entity_handler {z t : Text} (hz : Entity z) (ht : Handler t) : Clear z t := by
  rcases entity_chars_ends hz with ⟨hchars, hends⟩
  exact hends.clear (handler_ends ht) hchars (handler_chars ht) (by decide) (by decide)

theorem clear_script_handler {z t : Text} (hz : Script z) (ht : Handler t) : Clear z t :=
  (script_ends hz).clear (handler_ends ht) (script_chars hz) (handler_chars ht) (by decide) (by decide)

theorem clear_of_script {z : Text} (hz : Entity z) : z ≠ [] ∧ ∀ t, script.Matches t → Clear z t := by
  refine ⟨(entity_chars_ends hz).2.ne_nil, ?_⟩
  intro t ht
  rw [script_matches] at ht
  exact clear_entity_script hz ht

theorem clear_of_handler {z : Text} (hz : Entity z ∨ Script z) :
    z ≠ [] ∧ ∀ t, handler.Matches t → Clear z t := by
  rw [matches_handler]
  rcases hz with hz | hz
  · exact ⟨(entity_chars_ends hz).2.ne_nil, fun t => clear_entity_handler hz⟩
  · exact ⟨(script_ends hz).ne_nil, fun t => clear_script_handler hz⟩

theorem has_entity_trim (s : Text) : Has Entity (trim s) ↔ Has Entity s :=
  has_ends_trim_iff (fun _ hz => (entity_chars_ends hz).2) (by decide) (by decide) s

theorem has_script_trim (s : Text) : Has Script (trim s) ↔ Has Script s :=
  has_ends_trim_iff (fun _ hz => script_ends hz) (by decide) (by decide) s

theorem has_handler_trim (s : Text) : Has Handler (trim s) ↔ Has Handler s :=
  has_ends_trim_iff (fun _ hz => handler_ends hz) (by decide) (by decide) s

/-- Neither scripts nor handlers have angle brackets, and white space has none either. -/
theorem filter_sanitizeText (s : Text) :
    (sanitizeText s).filter isAngle = (shown s).filter isAngle := by
  have hscript : ∀ z, script.Matches z → z.filter isAngle = [] := by
    intro z hz
    rw [script_matches] at hz
    exact filter_isAngle_eq_nil (by decide) (script_chars hz)
  have hhandler : ∀ z, handler.Matches z → z.filter isAngle = [] := by
    intro z hz
    rw [matches_handler] at hz
    exact filter_isAngle_eq_nil (by decide) (handler_chars hz)
  rcases exists_trim (stripHtml s) with ⟨a, b, htrim, ha, hb⟩
  calc
    (sanitizeText s).filter isAngle
        = (stripHtml s).filter isAngle := by
          have hfilter := congrArg (List.filter isAngle) htrim
          rw [List.filter_append, List.filter_append, filter_isAngle_eq_nil (by decide) ha,
            filter_isAngle_eq_nil (by decide) hb, List.nil_append, List.append_nil] at hfilter
          exact hfilter.symm
    _ = (replaceAll script [] (shown s)).filter isAngle := by
          rw [stripHtml_eq, filter_replaceAll hhandler]
    _ = (shown s).filter isAngle := filter_replaceAll hscript _

/-! ## Sanitised strings -/

/-- In what a text shows no `<` stands before a `>` and no entity is spelled, and no script or handler
stands inside the spelling of an entity, a script or a handler. -/
structure Settled (s : Text) : Prop where
  angles : ¬ List.Sublist ['<', '>'] (shown s)
  entities : ¬ Has Entity (shown s)
  scripts : ∀ z, Entity z ∨ Script z → ¬ Joins (pieces script (shown s)) z
  handlers : ∀ z, Entity z ∨ Script z ∨ Handler z →
    ¬ Joins (pieces handler (replaceAll script [] (shown s))) z

theorem has_tag_sanitizeText (s : Text) :
    Has Tag (sanitizeText s) ↔ List.Sublist ['<', '>'] (shown s) := by
  rw [has_tag_iff, angles_filter, filter_sanitizeText, ← angles_filter]

theorem has_entity_sanitizeText (s : Text) :
    Has Entity (sanitizeText s) ↔
      (Has Entity (shown s) ∨ ∃ z, Entity z ∧ Joins (pieces script (shown s)) z) ∨
        ∃ z, Entity z ∧ Joins (pieces handler (replaceAll script [] (shown s))) z := by
  -- from the last stage back to the text that is shown
  rw [sanitizeText, has_entity_trim, stripHtml_eq,
    has_removed_iff (fun _ hz => clear_of_handler (Or.inl hz)),
    has_removed_iff fun _ => clear_of_script]

theorem has_script_sanitizeText (s : Text) :
    Has Script (sanitizeText s) ↔
      (∃ z, Script z ∧ Joins (pieces script (shown s)) z) ∨
        ∃ z, Script z ∧ Joins (pieces handler (replaceAll script [] (shown s))) z := by
  rw [sanitizeText, has_script_trim, stripHtml_eq,
    has_removed_iff (fun _ hz => clear_of_handler (Or.inr hz)),
    ← script_matches,
    has_own_iff]

theorem has_handler_sanitizeText (s : Text) :
    Has Handler (sanitizeText s) ↔
      ∃ z, Handler z ∧ Joins (pieces handler (replaceAll script [] (shown s))) z := by
  rw [sanitizeText, has_handler_trim, stripHtml_eq, ← matches_handler, has_own_iff]

theorem clean_and_same_iff_settled (s : Text) :
    Clean (sanitizeText s) ∧ sanitizeText (sanitizeText s) = sanitizeText s ↔ Settled s := by
  rw [clean_and_same_iff, has_tag_sanitizeText, has_entity_sanitizeText, has_script_sanitizeText,
    has_handler_sanitizeText]
  constructor
  · rintro ⟨hangles, hentity, hscript, hhandler⟩
    refine ⟨hangles, fun h => hentity (Or.inl (Or.inl h)), ?_, ?_⟩
    · rintro z (hz | hz) hjoins
      · exact hentity (Or.inl (Or.inr ⟨z, hz, hjoins⟩))
      · exact hscript (Or.inl ⟨z, hz, hjoins⟩)
    · rintro z (hz | hz | hz) hjoins
      · exact hentity (Or.inr ⟨z, hz, hjoins⟩)
      · exact hscript (Or.inr ⟨z, hz, hjoins⟩)
      · exact hhandler ⟨z, hz, hjoins⟩
  · intro h
    refine ⟨h.angles, ?_, ?_, ?_⟩
    · rintro ((hhas | ⟨z, hz, hjoins⟩) | ⟨z, hz, hjoins⟩)
      · exact h.entities hhas
      · exact h.scripts z (Or.inl hz) hjoins
      · exact h.handlers z (Or.inl hz) hjoins
    · rintro (⟨z, hz, hjoins⟩ | ⟨z, hz, hjoins⟩)
      · exact h.scripts z (Or.inr hz) hjoins
      · exact h.handlers z (Or.inr (Or.inl hz)) hjoins
    · rintro ⟨z, hz, hjoins⟩
      exact h.handlers z (Or.inr (Or.inr hz)) hjoins

/-! Neither the scripts nor the handlers that are taken out leave anything behind. -/

theorem Settled.left_by_scripts {s z : Text} (h : Settled s) (hz : Entity z ∨ Script z) :
    ¬ z <:+: replaceAll script [] (shown s) := by
  intro hinfix
  rcases hz with hz | hz
  · rcases (has_removed_iff (fun _ => clear_of_script) _).1 ⟨z, hz, hinfix⟩ with hhas | ⟨z, hz, hjoins⟩
    · exact h.entities hhas
    · exact h.scripts z (Or.inl hz) hjoins
  · rw [← script_matches] at hz
    rcases (has_own_iff _).1 ⟨z, hz, hinfix⟩ with ⟨z, hz, hjoins⟩
    rw [script_matches] at hz
    exact h.scripts z (Or.inr hz) hjoins

theorem Settled.left_by_handlers {s z : Text} (h : Settled s) (hz : Entity z ∨ Script z ∨ Handler z) :
    ¬ z <:+: replaceAll handler [] (replaceAll script [] (shown s)) := by
  intro hinfix
  have hkinds : Entity z ∨ Script z → False := by
    intro hz
    rcases (has_removed_iff (Y := fun z => Entity z ∨ Script z) (fun _ => clear_of_handler) _).1
      ⟨z, hz, hinfix⟩ with ⟨z, hz, hhas⟩ | ⟨z, hz, hjoins⟩
    · exact h.left_by_scripts hz hhas
    · exact h.handlers z (hz.imp_right Or.inl) hjoins
  rcases hz with hz | hz | hz
  · exact hkinds (Or.inl hz)
  · exact hkinds (Or.inr hz)
  · rw [← matches_handler] at hz
    rcases (has_own_iff _).1 ⟨z, hz, hinfix⟩ with ⟨z, hz, hjoins⟩
    rw [matches_handler] at hz
    exact h.handlers z (Or.inr (Or.inr hz)) hjoins

end Pipes
end PaymentRail
