import PaymentRail.Pipes.Entities

/-!
# RawText — bodies that the pipe does clean

A replacement of `stripHtml` may put together what an earlier one, or the same one, is there to remove.
This module says in the text as it is received when that happens:

- `Reads` : what is read outside the tags
- `Undisturbed` : no bracket and no entity is spelled so that it is there once entities are decoded, and
  nothing that is taken out stands inside what would be taken out
- `sanitized_clean_iff` : the bodies of such strings, and no others, come out clean and stay as they are
-/

namespace PaymentRail
namespace Pipes

open Strings Strings.Replace

/-! ## Reading outside the tags -/

theorem tag_closed : ClosedBy Tag '>' := by
  rintro z ⟨inside, rfl, hinside⟩
  refine ⟨'<' :: inside, rfl, ?_⟩
  rintro (_ | ⟨_, hmem⟩)
  exact hinside hmem

/-- Some beginning of `s`, which does not end inside a tag, reads `v` outside its tags. -/
def Reads (s v : Text) : Prop := ∃ u b, s = u ++ b ∧ Apart Tag u b ∧ Outside Tag [] u v

theorem reads_iff {s v : Text} : Reads s v ↔ v <+: replaceAll tag [] s := by
  have hclosed : ClosedBy tag.Matches '>' := by
    rw [matches_tag]
    exact tag_closed
  constructor
  · rintro ⟨u, b, rfl, hapart, hread⟩
    rw [← matches_tag] at hapart hread
    have hleft := replaceAll_of_outside hclosed hread hapart
    exact ⟨replaceAll tag [] b, hleft.symm⟩
  · rintro ⟨y, hy⟩
    rcases split_left (l := pieces tag s) hy.symm with ⟨before, behind, hread, rfl, _⟩
    refine ⟨source before, source behind, ?_, ?_, ?_⟩
    · rw [← source_append, ← hread, source_pieces]
    · have hapart := apart_of_pieces hclosed hread
      rwa [matches_tag] at hapart
    · have houtside := outside_of_pieces [] before behind hclosed hread
      rwa [matches_tag] at houtside

/-! ## The condition -/

/-- `t` stands for the character `c`. -/
def Shows (t : Text) (c : Char) : Prop := t = [c] ∨ Decodes t [c]

/-- In what any beginning of `s` reads outside its tags,

- no `<` or `&lt;` stands before a `>` or `&gt;`,
- no entity has an `&` that is itself spelled `&amp;`, and
- nothing that spells an entity or a `javascript:` is broken by a `javascript:`;

and in what that reads outside any `javascript:`,

- nothing that spells an entity, a `javascript:` or an `on…=` is broken by an `on…=`.

What breaks is not the end of a longer one: in `onaoonb=nx=` nothing is broken, since `onaoonb=` is left
out as a whole. -/
structure Undisturbed (s : Text) : Prop where
  angles : ∀ v o m c, Reads s (v ++ (o ++ (m ++ c))) → Shows o '<' → ¬ Shows c '>'
  entities : ∀ v z, Reads s (v ++ z) → ¬ Escaped z
  scripts : ∀ v z, Reads s v → Entity z ∨ Escaped z ∨ Script z → ¬ Broken Script z v
  handlers : ∀ v w z, Reads s v → Outside Script [] v w →
    Entity z ∨ Escaped z ∨ Script z ∨ Handler z → ¬ Broken Handler z w

/-- What shows was read. -/
theorem reads_of_shown {s w : Text} (h : w <+: shown s) : ∃ v, Reads s v ∧ Becomes Decodes v w := by
  rcases h with ⟨rest, hrest⟩
  have hbecomes := becomes_decode (replaceAll tag [] s)
  rw [show decode (replaceAll tag [] s) = w ++ rest from hrest.symm] at hbecomes
  rcases hbecomes.split (fun t new ht => decodes_length ht) with ⟨v, v', hv, hfirst, _⟩
  exact ⟨v, reads_iff.2 ⟨v', hv.symm⟩, hfirst⟩

theorem closed_script : ClosedBy script.Matches ':' := by
  rw [script_matches]
  exact script_closed

theorem closed_handler : ClosedBy handler.Matches '=' := by
  rw [matches_handler]
  exact handler_closed

/-- A bracket that shows was spelled. -/
theorem shows_of_becomes {t : Text} {c : Char} (h : Becomes Decodes t [c]) : Shows t c := by
  rcases h.of_cons (fun t new ht => (decodes_single ht).2) with ⟨u, rfl, hu⟩ | ⟨t, u, rfl, ht, _, hu⟩
  · rw [hu.of_nil fun t new ht => (decodes_single ht).2]
    exact Or.inl rfl
  · rw [hu.of_nil fun t new ht => (decodes_single ht).2, List.append_nil]
    exact Or.inr ht

theorem Undisturbed.settled {s : Text} (h : Undisturbed s) : Settled s where
  angles := by
    intro hangles
    have hone : ∀ t new : Text, Decodes t new → new.length ≤ 1 := fun t new ht => decodes_length ht
    rcases (has_tag_iff _).2 hangles with ⟨z, ⟨inside, rfl, _⟩, a, b, hshown⟩
    rcases reads_of_shown (s := s) ⟨b, hshown⟩ with ⟨v, hread, hbecomes⟩
    -- back to the text in front, the `<`, the text inside and the `>`
    rcases hbecomes.split hone with ⟨v₀, v₁, rfl, _, htag⟩
    rcases Becomes.split (x := ['<']) hone htag with ⟨o, v₂, rfl, ho, hrest⟩
    rcases hrest.split hone with ⟨m, c, rfl, _, hc⟩
    exact h.angles v₀ o m c hread (shows_of_becomes ho) (shows_of_becomes hc)
  entities := by
    intro hentity
    rcases has_escaped_of_decode hentity with ⟨z, hescaped, v, b, hv⟩
    exact h.entities v z (reads_iff.2 ⟨b, hv⟩) hescaped
  scripts := by
    intro z hz hjoins
    rcases hjoins.broken closed_script with ⟨u, hu, hbroken⟩
    rw [script_matches] at hbroken
    rcases reads_of_shown hu with ⟨v, hread, hbecomes⟩
    rcases taken_script.foreign.broken script_closed hbecomes hbroken with ⟨z', hbroken', hspelled⟩
    refine h.scripts v z' hread ?_ hbroken'
    rcases hz with hz | hz
    · exact (entity_before hz hspelled).imp_right Or.inl
    · rw [same_before (script_not_decoded hz) hspelled]
      exact Or.inr (Or.inr hz)
  handlers := by
    intro z hz hjoins
    rcases hjoins.broken closed_handler with ⟨x, ⟨rest, hrest⟩, hbroken⟩
    rw [matches_handler] at hbroken
    -- back over the scripts, over the entities and over the tags
    rcases split_left (l := pieces script (shown s)) hrest.symm with ⟨before, behind, hpieces, rfl, _⟩
    have houtside := outside_of_pieces [] before behind closed_script hpieces
    rw [script_matches] at houtside
    have hu : source before <+: shown s := by
      rw [← source_pieces script (shown s), hpieces, source_append]
      exact List.prefix_append _ _
    rcases reads_of_shown hu with ⟨v, hread, hbecomes⟩
    rcases taken_script.foreign.outside script_closed .nil hbecomes houtside with ⟨w, hw, hbecomes'⟩
    rcases taken_handler.foreign.broken handler_closed hbecomes' hbroken with
      ⟨z', hbroken', hspelled⟩
    refine h.handlers v w z' hread hw ?_ hbroken'
    rcases hz with hz | hz | hz
    · exact (entity_before hz hspelled).imp_right Or.inl
    · rw [same_before (script_not_decoded hz) hspelled]
      exact Or.inr (Or.inr (Or.inl hz))
    · rw [same_before (handler_not_decoded hz) hspelled]
      exact Or.inr (Or.inr (Or.inr hz))

/-! ## The condition is exact -/

theorem not_name_of_shows {t : Text} {c : Char} (h : Shows t c) (hc : ¬ isNameChar c = true)
    (rest : Text) : ∀ d ∈ (t ++ rest).head?, ¬ isNameChar d = true := by
  rcases h with rfl | ⟨rfl, _⟩ | ⟨rfl, _⟩ | ⟨rfl, _⟩
  · rintro d ⟨⟩
    exact hc
  all_goals
    rintro d ⟨⟩
    decide

theorem decode_of_shows {t : Text} {c : Char} (h : Shows t c) (hc : c ≠ '&') (rest : Text) :
    decode (t ++ rest) = c :: decode rest := by
  rcases h with rfl | h
  · exact decode_cons fun heq => absurd heq hc
  · exact decode_of_decodes h rest

theorem last_of_kind {z : Text} (h : Entity z ∨ Script z ∨ Handler z) :
    ∀ f ∈ z.getLast?, f = ';' ∨ f = ':' ∨ f = '=' := by
  intro f hf
  rcases h with h | h | h
  · rw [(entity_chars_ends h).2.2] at hf
    cases hf
    exact Or.inl rfl
  · rw [(script_ends h).2] at hf
    cases hf
    exact Or.inr (Or.inl rfl)
  · rw [(handler_ends h).2] at hf
    cases hf
    exact Or.inr (Or.inr rfl)

theorem last_of_spelling {z : Text} (h : Entity z ∨ Escaped z ∨ Script z ∨ Handler z) :
    ∀ f ∈ z.getLast?, f = ';' ∨ f = ':' ∨ f = '=' := by
  rcases h with h | ⟨name, h, rfl⟩ | h
  · exact last_of_kind (Or.inl h)
  · intro f hf
    rcases entity_names h with ⟨name, heq, hname⟩
    rcases List.cons.inj heq with ⟨-, rfl⟩
    refine last_of_kind (Or.inl h) f ?_
    rcases hname with rfl | rfl | rfl <;> exact hf
  · exact last_of_kind (Or.inr h)

theorem apart_last_script {f : Char} (h : f = ';' ∨ f = ':' ∨ f = '=') :
    f = ':' ∨ ∀ t, Script t → f ∉ t := by
  rcases h with rfl | rfl | rfl
  · exact Or.inr fun t ht hmem => absurd (script_chars ht _ hmem) (by decide)
  · exact Or.inl rfl
  · exact Or.inr fun t ht hmem => absurd (script_chars ht _ hmem) (by decide)

theorem apart_last_handler {f : Char} (h : f = ';' ∨ f = ':' ∨ f = '=') :
    f = '=' ∨ ∀ t, Handler t → f ∉ t := by
  rcases h with rfl | rfl | rfl
  · exact Or.inr fun t ht hmem => absurd (handler_chars ht _ hmem) (by decide)
  · exact Or.inr fun t ht hmem => absurd (handler_chars ht _ hmem) (by decide)
  · exact Or.inl rfl

theorem Settled.scripts_undisturbed {s v z : Text} (h : Settled s) (hread : Reads s v)
    (hz : Entity z ∨ Escaped z ∨ Script z) : ¬ Broken Script z v := by
  intro hbroken
  rcases reads_iff.1 hread with ⟨b, hb⟩
  rcases taken_script.kind_decode (fun z => taken_script.spelling) hz hbroken b with
    ⟨z', y, hz', ⟨rest, hrest⟩, hbroken'⟩
  have hapart : Apart script.Matches y rest := by
    rw [script_matches]
    refine hbroken'.apart script_closed ?_
    intro f hf
    exact apart_last_script (last_of_kind (hz'.imp_right Or.inl) f hf)
  rw [← script_matches] at hbroken'
  have hinfix := hbroken'.infix_replaceAll closed_script hapart
  rw [hrest, hb] at hinfix
  exact h.left_by_scripts hz' hinfix

/-- What the text reads outside its tags and any `javascript:` is what shows outside them. -/
theorem Settled.scripts_decode {s : Text} (h : Settled s) :
    replaceAll script [] (shown s) = decode (replaceAll script [] (replaceAll tag [] s)) := by
  have hpieces : pieces script (replaceAll tag [] s) =
      [] ++ (pieces script (replaceAll tag [] s) ++ []) := by simp
  have hwhole := outside_of_pieces [] _ [] closed_script hpieces
  rw [source_pieces, script_matches] at hwhole
  have hnone : ∀ z y, Entity z → y <+: [] ++ replaceAll tag [] s → ¬ Broken Script z y :=
    fun z y hz hy => h.scripts_undisturbed (reads_iff.2 hy) (Or.inl hz)
  have hdecoded := taken_script.outside_decode hnone .nil hwhole
  rw [← script_matches] at hdecoded
  have hleft := replaceAll_of_outside (b := []) closed_script hdecoded apart_nil_right
  rw [List.nil_append, List.append_nil] at hleft
  exact hleft.trans (List.append_nil _)

theorem Settled.angles_undisturbed {s v o m c : Text} (h : Settled s)
    (hread : Reads s (v ++ (o ++ (m ++ c)))) (ho : Shows o '<') : ¬ Shows c '>' := by
  intro hc
  rcases reads_iff.1 hread with ⟨b, hb⟩
  have hdecode : shown s = decode v ++ '<' :: (decode m ++ '>' :: decode b) := by
    have hhead := not_name_of_shows ho (by decide) (m ++ (c ++ b))
    have hhead' := not_name_of_shows hc (by decide) b
    rw [shown, ← hb]
    simp only [List.append_assoc]
    rw [decode_append hhead, decode_of_shows ho (by decide), decode_append hhead',
      decode_of_shows hc (by decide)]
  refine h.angles ?_
  rw [hdecode]
  have hclose : List.Sublist ['>'] (decode m ++ '>' :: decode b) :=
    List.singleton_sublist.2 (List.mem_append_right _ List.mem_cons_self)
  exact (hclose.cons_cons '<').trans (List.sublist_append_right _ _)

theorem Settled.entities_undisturbed {s v z : Text} (h : Settled s) (hread : Reads s (v ++ z)) :
    ¬ Escaped z := by
  rintro ⟨name, hname, rfl⟩
  rcases reads_iff.1 hread with ⟨b, hb⟩
  rcases entity_names hname with ⟨name, heq, hnames⟩
  rcases List.cons.inj heq with ⟨-, rfl⟩
  have hamp : '&' ∉ name := fun hmem => name_not_decoded hnames _ hmem (by decide)
  have hhead : ∀ c ∈ ("&amp;".toList ++ (name ++ b)).head?, ¬ isNameChar c = true := by
    rintro c ⟨⟩
    decide
  have hdecode : shown s = decode v ++ '&' :: (name ++ decode b) := by
    rw [shown, ← hb]
    simp only [List.append_assoc]
    rw [decode_append hhead, decode_of_decodes (Or.inr (Or.inr ⟨rfl, rfl⟩)), decode_plain hamp]
  refine h.entities ⟨_, hname, decode v, decode b, ?_⟩
  rw [hdecode]
  simp

/-- What is read outside any `javascript:` is left by the search for them, up to the end of what is
broken in it. -/
theorem left_of_broken {u v w z : Text} (hw : Outside Script [] v w) (hbroken : Broken Handler z w)
    (hlast : ∀ f ∈ z.getLast?, f = ';' ∨ f = ':' ∨ f = '=') :
    replaceAll script [] (v ++ u) = w ++ replaceAll script [] u := by
  have hends : ∀ f ∈ w.getLast?, f = ';' ∨ f = ':' ∨ f = '=' := by
    intro f hf
    rcases hbroken.last handler_closed with ⟨f', hf', hor⟩
    cases Option.mem_unique hf hf'
    rcases hor with rfl | hz
    · exact Or.inr (Or.inr rfl)
    · exact hlast f hz
  have hne : v ≠ [] := by
    rintro rfl
    rcases hbroken.last handler_closed with ⟨f, hf, _⟩
    rw [hw.of_nil script_closed] at hf
    cases hf
  have hapart : Apart script.Matches ([] ++ v) u := by
    rw [script_matches]
    exact hw.apart script_closed hne fun f hf => apart_last_script (hends f hf)
  rw [← script_matches] at hw
  exact replaceAll_of_outside closed_script hw hapart

theorem Settled.handlers_undisturbed {s v w z : Text} (h : Settled s) (hread : Reads s v)
    (hw : Outside Script [] v w) (hz : Entity z ∨ Escaped z ∨ Script z ∨ Handler z) :
    ¬ Broken Handler z w := by
  intro hbroken
  rcases reads_iff.1 hread with ⟨b, hb⟩
  have hleft := left_of_broken (u := b) hw hbroken (last_of_spelling hz)
  rw [hb] at hleft
  have hK : ∀ z, Script z ∨ Handler z → Spelling z := by
    rintro z (hz | hz)
    · exact taken_script.spelling hz
    · exact taken_handler.spelling hz
  rcases taken_handler.kind_decode hK hz hbroken (replaceAll script [] b) with
    ⟨z', y, hz', ⟨rest, hrest⟩, hbroken'⟩
  have hend : Apart handler.Matches y rest := by
    rw [matches_handler]
    refine hbroken'.apart handler_closed ?_
    intro f hf
    exact apart_last_handler (last_of_kind hz' f hf)
  rw [← matches_handler] at hbroken'
  have hinfix := hbroken'.infix_replaceAll closed_handler hend
  refine h.left_by_handlers hz' ?_
  rwa [hrest, ← hleft, ← h.scripts_decode] at hinfix

theorem Settled.undisturbed {s : Text} (h : Settled s) : Undisturbed s where
  angles := fun _ _ _ _ hread ho => h.angles_undisturbed hread ho
  entities := fun _ _ hread => h.entities_undisturbed hread
  scripts := fun _ _ hread hz => h.scripts_undisturbed hread hz
  handlers := fun _ _ _ hread hw hz => h.handlers_undisturbed hread hw hz

theorem undisturbed_iff (s : Text) : Undisturbed s ↔ Settled s :=
  ⟨Undisturbed.settled, Settled.undisturbed⟩

/-! ## Sanitised bodies -/

theorem transform_body {N : Type} (value : Body N) : transform value .body = sanitize value :=
  if_neg fun h => h rfl

/-- A body comes out clean and is left alone by a second pass exactly if no prototype is assigned in it
and its strings are undisturbed. -/
theorem sanitized_clean_iff {N : Type} (body : Body N) :
    ((∀ s ∈ strings (transform body .body), Clean s) ∧
        transform (transform body .body) .body = transform body .body) ↔
      NoPrototype body ∧ ∀ s ∈ ownStrings body, Undisturbed s := by
  rw [transform_body, transform_body, sanitize_iff]
  refine and_congr_right fun _ => forall₂_congr fun s _ => ?_
  rw [clean_and_same_iff_settled, undisturbed_iff]

/-- `&lt;script&gt;` comes out as a tag. -/
theorem decoded_tag_stays :
    ¬ ((∀ s ∈ strings (transform (N := Int) (.str "&lt;script&gt;".toList) .body), Clean s) ∧
      transform (transform (N := Int) (.str "&lt;script&gt;".toList) .body) .body =
        transform (.str "&lt;script&gt;".toList) .body) := by
  rintro ⟨hclean, _⟩
  have hout : sanitizeText "&lt;script&gt;".toList = "<script>".toList := by decide +kernel
  have hstrings : strings (transform (N := Int) (.str "&lt;script&gt;".toList) .body) =
      [sanitizeText "&lt;script&gt;".toList] := by
    rw [transform_body, sanitize, strings]
  rw [hstrings, hout] at hclean
  refine (hclean _ List.mem_cons_self).tags ((has_tag_iff _).2 ?_)
  decide

end Pipes
end PaymentRail
