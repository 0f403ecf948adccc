import Mathlib.Data.Char
import Mathlib.Data.List.Lex
import Mathlib.Data.List.Perm.Basic
import Mathlib.Data.Set.Function
import PaymentRail.Collections.Arrange
import PaymentRail.Strings.Json
import PaymentRail.Strings.Separated

/-!
# CanonicalJson — the text of a request body that its hash is taken over

This module embeds `hashBody` and `canonicalJson` of `idempotency/idempotency.interceptor.ts`.  What
`JSON.stringify` makes of strings and numbers is given by `Stringify`: strings stand in quotes and are
escaped, numbers are written in their own characters, and neither form is used twice.  Keys are
compared by some total order; which one does not matter.  Bodies are as deep as the stack of the engine
lets the recursion go.

- `Same` : values that differ in the order of object keys only, at every level
- `decodes_canonicalJson` : the text tells the value up to that order
- `canonicalJson_of_same` : and that order does not change the text
-/

namespace PaymentRail
namespace Idempotency

open Strings Collections
open Separated (Escaped Stops Decodes Begins stops_cons)

/-! ## Values -/

/-- A JSON value.  The fields of an object stand in the order in which they were added. -/
inductive Value (S N : Type) where
  | null
  | bool (value : Bool)
  | num (value : N)
  | str (value : S)
  | arr (items : List (Value S N))
  | obj (fields : List (S × Value S N))

/-- A character of a number. -/
def isNumberChar (c : Char) : Bool := isDecDigit c || ['-', '+', '.', 'e'].contains c

/-- `JSON.stringify` on strings and numbers. -/
structure Stringify (S N : Type) where
  str : S → Text
  num : N → Text
  str_injective : Function.Injective str
  num_injective : Function.Injective num
  str_quoted : ∀ s, ∃ inside, str s = '"' :: inside ++ ['"'] ∧ Escaped inside
  num_chars : ∀ n, num n ≠ [] ∧ ∀ c ∈ num n, isNumberChar c = true

variable {S N : Type}

namespace Value

/-- Induction where the items of an array and the fields of an object come with their hypotheses. -/
@[elab_as_elim]
theorem elements {P : Value S N → Prop} (null : P .null) (bool : ∀ b, P (.bool b))
    (num : ∀ n, P (.num n)) (str : ∀ s, P (.str s))
    (arr : ∀ items, (∀ item ∈ items, P item) → P (.arr items))
    (obj : ∀ fields, (∀ field ∈ fields, P field.2) → P (.obj fields)) (v : Value S N) : P v := by
  refine @Value.rec S N P (fun items => ∀ item ∈ items, P item)
    (fun fields => ∀ field ∈ fields, P field.2) (fun field => P field.2)
    null bool num str arr obj ?_ ?_ ?_ ?_ ?_ v
  · exact fun _ h => absurd h List.not_mem_nil
  · exact fun _ _ hitem hitems => List.forall_mem_cons.2 ⟨hitem, hitems⟩
  · exact fun _ h => absurd h List.not_mem_nil
  · exact fun _ _ hfield hfields => List.forall_mem_cons.2 ⟨hfield, hfields⟩
  · exact fun _ _ h => h

end Value

/-- No object has two fields of one name. -/
inductive UniqueKeys : Value S N → Prop
  | null : UniqueKeys .null
  | bool (b : Bool) : UniqueKeys (.bool b)
  | num (n : N) : UniqueKeys (.num n)
  | str (s : S) : UniqueKeys (.str s)
  | arr {items : List (Value S N)} (h : ∀ item ∈ items, UniqueKeys item) : UniqueKeys (.arr items)
  | obj {fields : List (S × Value S N)} (hkeys : (fields.map Prod.fst).Nodup)
      (h : ∀ field ∈ fields, UniqueKeys field.2) : UniqueKeys (.obj fields)

mutual

/-- Equal up to the order of the keys, at every level. -/
inductive Same : Value S N → Value S N → Prop
  | null : Same .null .null
  | bool (b : Bool) : Same (.bool b) (.bool b)
  | num (n : N) : Same (.num n) (.num n)
  | str (s : S) : Same (.str s) (.str s)
  | arr {items items' : List (Value S N)} (h : List.Forall₂ Same items items') :
      Same (.arr items) (.arr items')
  | obj {fields reordered fields' : List (S × Value S N)} (hperm : fields.Perm reordered)
      (h : List.Forall₂ SameField reordered fields') : Same (.obj fields) (.obj fields')

inductive SameField : S × Value S N → S × Value S N → Prop
  | field {key : S} {v w : Value S N} (h : Same v w) : SameField (key, v) (key, w)

end

/-! ## The canonical text -/

section Text

variable [LinearOrder S] (J : Stringify S N)

def boolText (b : Bool) : Text := if b = true then "true".toList else "false".toList

/-- A field of an object, its value being printed already. -/
def entryText (entry : S × Text) : Text := J.str entry.1 ++ ':' :: entry.2

mutual

def canonicalJson : Value S N → Text
  | .null => "null".toList
  | .bool b => boolText b
  | .num n => J.num n
  | .str s => J.str s
  | .arr items => '[' :: List.intercalate [','] (canonicalItems items) ++ [']']
  | .obj fields =>
      let entries := (Arrange.orderBy Prod.fst (canonicalFields fields)).map (entryText J)
      '{' :: List.intercalate [','] entries ++ ['}']

def canonicalItems : List (Value S N) → List Text
  | [] => []
  | item :: items => canonicalJson item :: canonicalItems items

def canonicalFields : List (S × Value S N) → List (S × Text)
  | [] => []
  | (key, value) :: fields => (key, canonicalJson value) :: canonicalFields fields

end

/-- `createHash('sha256').update(canonicalJson(body)).digest('hex')` -/
def hashBody (sha256 : Text → Text) (body : Value S N) : Text := sha256 (canonicalJson J body)

/-- A field with its value printed. -/
def printField (field : S × Value S N) : S × Text := (field.1, canonicalJson J field.2)

theorem canonicalItems_eq (items : List (Value S N)) :
    canonicalItems J items = items.map (canonicalJson J) := by
  induction items with
  | nil => rfl
  | cons item items ih => rw [canonicalItems, ih, List.map_cons]

theorem canonicalFields_eq (fields : List (S × Value S N)) :
    canonicalFields J fields = fields.map (printField J) := by
  induction fields with
  | nil => rfl
  | cons field fields ih => rw [canonicalFields, ih, List.map_cons, printField]

/-- Sorting does not look at the values. -/
theorem orderBy_printField (fields : List (S × Value S N)) :
    Arrange.orderBy Prod.fst (fields.map (printField J)) =
      (Arrange.orderBy Prod.fst fields).map (printField J) :=
  (List.map_insertionSort _ _ (printField J) fields fun _ _ _ _ => Iff.rfl).symm

end Text

/-! ## The text tells the value -/

/-- A character that ends a value inside a larger one. -/
def endsValue (c : Char) : Bool := [',', ']', '}'].contains c

theorem numberChar_not_endsValue {c : Char} (h : isNumberChar c = true) : endsValue c = false := by
  have hne : c ≠ ',' ∧ c ≠ ']' ∧ c ≠ '}' := by
    refine ⟨?_, ?_, ?_⟩ <;>
      · rintro rfl
        exact absurd h (by decide)
  simp [endsValue, hne]

/-- The kind of a value, by number. -/
def kindOf : Value S N → Nat
  | .null => 0
  | .bool b => if b = true then 2 else 1
  | .num _ => 3
  | .str _ => 4
  | .arr _ => 5
  | .obj _ => 6

/-- Two values of one kind. -/
inductive Alike : Value S N → Value S N → Prop
  | null : Alike .null .null
  | bool (b : Bool) : Alike (.bool b) (.bool b)
  | num (n n' : N) : Alike (.num n) (.num n')
  | str (s s' : S) : Alike (.str s) (.str s')
  | arr (items items' : List (Value S N)) : Alike (.arr items) (.arr items')
  | obj (fields fields' : List (S × Value S N)) : Alike (.obj fields) (.obj fields')

theorem alike_of_kindOf {v w : Value S N} (h : kindOf v = kindOf w) : Alike v w := by
  cases v <;> cases w <;> simp only [kindOf] at h
  case null.null => exact .null
  case bool.bool b b' =>
    have hbool : b = b' := by cases b <;> cases b' <;> simp at h <;> rfl
    rw [hbool]
    exact .bool b'
  case num.num n n' => exact .num n n'
  case str.str s s' => exact .str s s'
  case arr.arr items items' => exact .arr items items'
  case obj.obj fields fields' => exact .obj fields fields'
  all_goals first | omega | (split at h <;> omega)

/-- The kind of the values that begin with a character. -/
def kindBy (c : Char) : Nat :=
  if c = 'n' then 0
  else if c = 'f' then 1
  else if c = 't' then 2
  else if c = '"' then 4
  else if c = '[' then 5
  else if c = '{' then 6
  else 3

theorem kindBy_numberChar {c : Char} (h : isNumberChar c = true) : kindBy c = 3 := by
  have hne : c ≠ 'n' ∧ c ≠ 'f' ∧ c ≠ 't' ∧ c ≠ '"' ∧ c ≠ '[' ∧ c ≠ '{' := by
    refine ⟨?_, ?_, ?_, ?_, ?_, ?_⟩ <;>
      · rintro rfl
        exact absurd h (by decide)
  simp [kindBy, hne]

section Decoding

variable (J : Stringify S N)

/-- Strings end at their closing quote. -/
theorem str_append_inj {s t : S} {rest rest' : Text} (h : J.str s ++ rest = J.str t ++ rest') :
    s = t ∧ rest = rest' := by
  rcases J.str_quoted s with ⟨inside, hs, hescaped⟩
  rcases J.str_quoted t with ⟨inside', ht, hescaped'⟩
  rw [hs, ht] at h
  simp only [List.cons_append, List.append_assoc, List.cons.injEq, true_and] at h
  rcases Separated.quoted_inj hescaped hescaped' h with ⟨hinside, hrest⟩
  refine ⟨J.str_injective ?_, hrest⟩
  rw [hs, ht, hinside]

variable [LinearOrder S]

/-- The first character tells the kind of a value. -/
theorem canonicalJson_head (v : Value S N) :
    ∃ c rest, canonicalJson J v = c :: rest ∧ kindBy c = kindOf v ∧ endsValue c = false := by
  cases v with
  | null => exact ⟨'n', "ull".toList, rfl, rfl, rfl⟩
  | bool b =>
      cases b with
      | false => exact ⟨'f', "alse".toList, rfl, rfl, rfl⟩
      | true => exact ⟨'t', "rue".toList, rfl, rfl, rfl⟩
  | num n =>
      -- a number begins with a character that no other value begins with
      rcases J.num_chars n with ⟨hne, hchars⟩
      cases htext : J.num n with
      | nil => exact absurd htext hne
      | cons c rest =>
          have hc : isNumberChar c = true := hchars c (by simp [htext])
          exact ⟨c, rest, by rw [canonicalJson, htext], kindBy_numberChar hc,
            numberChar_not_endsValue hc⟩
  | str s =>
      rcases J.str_quoted s with ⟨inside, hs, _⟩
      exact ⟨'"', inside ++ ['"'], by rw [canonicalJson, hs]; rfl, rfl, rfl⟩
  | arr items => exact ⟨'[', _, by rw [canonicalJson]; rfl, rfl, rfl⟩
  | obj fields => exact ⟨'{', _, by rw [canonicalJson]; rfl, rfl, rfl⟩

theorem alike_of_text {v w : Value S N} {rest rest' : Text}
    (h : canonicalJson J v ++ rest = canonicalJson J w ++ rest') : Alike v w := by
  rcases canonicalJson_head J v with ⟨c, more, hv, hkind, _⟩
  rcases canonicalJson_head J w with ⟨d, more', hw, hkind', _⟩
  rw [hv, hw] at h
  refine alike_of_kindOf ?_
  rw [← hkind, ← hkind', (List.cons.inj h).1]

theorem begins_canonicalJson : Begins endsValue (canonicalJson J) := by
  intro v
  rcases canonicalJson_head J v with ⟨c, rest, htext, _, hc⟩
  exact ⟨c, rest, htext, hc⟩

/-- The text of a field with its value. -/
def fieldText (field : S × Value S N) : Text := entryText J (printField J field)

theorem begins_fieldText : Begins endsValue (fieldText J) := by
  intro field
  rcases J.str_quoted field.1 with ⟨inside, hs, _⟩
  refine ⟨'"', inside ++ ['"'] ++ ':' :: canonicalJson J field.2, ?_, by decide⟩
  rw [fieldText, entryText, printField, hs]
  simp

theorem decodes_fieldText {field : S × Value S N}
    (h : Decodes endsValue (canonicalJson J) Same field.2) :
    Decodes endsValue (fieldText J) SameField field := by
  rintro ⟨key', value'⟩ rest rest' hrest hrest' htext
  rcases field with ⟨key, value⟩
  simp only [fieldText, entryText, printField, List.append_assoc, List.cons_append] at htext
  -- the name ends at its quote, so the values begin at the same place
  rcases str_append_inj J htext with ⟨rfl, hvalues⟩
  rcases h value' rest rest' hrest hrest' (List.cons.inj hvalues).2 with ⟨hsame, hequal⟩
  exact ⟨.field hsame, hequal⟩

theorem canonicalJson_arr (items : List (Value S N)) :
    canonicalJson J (.arr items) =
      '[' :: List.intercalate [','] (items.map (canonicalJson J)) ++ [']'] := by
  rw [canonicalJson, canonicalItems_eq]

theorem canonicalJson_obj (fields : List (S × Value S N)) :
    canonicalJson J (.obj fields) =
      '{' :: List.intercalate [','] ((Arrange.orderBy Prod.fst fields).map (fieldText J)) ++
        ['}'] := by
  rw [canonicalJson, canonicalFields_eq, orderBy_printField, List.map_map]
  rfl

/-- Fields that are the same in sorted order are the same up to their order. -/
theorem same_obj {fields fields' : List (S × Value S N)}
    (h : List.Forall₂ SameField (Arrange.orderBy Prod.fst fields) (Arrange.orderBy Prod.fst fields')) :
    Same (.obj fields) (.obj fields') := by
  have hcomp : Relation.Comp (List.Forall₂ SameField) List.Perm
      (Arrange.orderBy Prod.fst fields) fields' :=
    ⟨_, h, Arrange.perm_orderBy fields'⟩
  rw [List.forall₂_comp_perm_eq_perm_comp_forall₂] at hcomp
  rcases hcomp with ⟨reordered, hperm, hsame⟩
  exact .obj ((Arrange.perm_orderBy fields).symm.trans hperm) hsame

/-- Whatever follows, the text of a value is the text of the same values only. -/
theorem decodes_canonicalJson (v : Value S N) : Decodes endsValue (canonicalJson J) Same v := by
  induction v using Value.elements with
  | null =>
    intro w rest rest' _ _ h
    cases alike_of_text J h with
    | null => exact ⟨.null, List.append_cancel_left h⟩
  | bool b =>
    intro w rest rest' _ _ h
    cases alike_of_text J h with
    | bool b => exact ⟨.bool b, List.append_cancel_left h⟩
  | num n =>
    intro w rest rest' hrest hrest' h
    cases alike_of_text J h with
    | num _ n' =>
        -- a number has no end of its own: it is over where the next text begins
        have hchars : ∀ m, ∀ c ∈ J.num m, endsValue c = false :=
          fun m c hc => numberChar_not_endsValue ((J.num_chars m).2 c hc)
        rw [canonicalJson, canonicalJson] at h
        rcases Separated.word_inj (hchars n) (hchars n') hrest hrest' h with ⟨htext, hequal⟩
        rw [J.num_injective htext]
        exact ⟨.num n', hequal⟩
  | str s =>
    intro w rest rest' _ _ h
    cases alike_of_text J h with
    | str _ s' =>
        rw [canonicalJson, canonicalJson] at h
        rcases str_append_inj J h with ⟨rfl, hequal⟩
        exact ⟨.str s, hequal⟩
  | arr items ih =>
    intro w rest rest' _ _ h
    cases alike_of_text J h with
    | arr _ items' =>
        simp only [canonicalJson_arr, List.cons_append, List.append_assoc, List.cons.injEq,
          true_and] at h
        rcases Separated.decodes_separated (by decide) (by decide) (by decide) (begins_canonicalJson J)
          ih h with ⟨hsame, hequal⟩
        exact ⟨.arr hsame, hequal⟩
  | obj fields ih =>
    intro w rest rest' _ _ h
    cases alike_of_text J h with
    | obj _ fields' =>
        simp only [canonicalJson_obj, List.cons_append, List.append_assoc, List.cons.injEq,
          true_and] at h
        -- the fields are read in sorted order, and the induction is on the value as it is
        have hfields : ∀ field ∈ Arrange.orderBy Prod.fst fields,
            Decodes endsValue (fieldText J) SameField field :=
          fun field hfield => decodes_fieldText J (ih field (Arrange.mem_orderBy.1 hfield))
        rcases Separated.decodes_separated (by decide) (by decide) (by decide) (begins_fieldText J)
          hfields h with ⟨hsame, hequal⟩
        exact ⟨same_obj hsame, hequal⟩

/-! ## The order of the keys does not change the text -/

theorem forall₂_imp_mem {α β : Type} {R R' : α → β → Prop} {xs : List α} {ys : List β}
    (h : List.Forall₂ R xs ys) (himp : ∀ x ∈ xs, ∀ y, R x y → R' x y) : List.Forall₂ R' xs ys := by
  induction h with
  | nil => exact .nil
  | cons hxy _ ih =>
      rcases List.forall_mem_cons.1 himp with ⟨hhead, htail⟩
      exact .cons (hhead _ hxy) (ih htail)

/-- Fields with unique names are sorted to the same list whatever order they are in. -/
theorem orderBy_perm {fields reordered : List (S × Value S N)} (hkeys : (fields.map Prod.fst).Nodup)
    (hperm : fields.Perm reordered) :
    Arrange.orderBy Prod.fst fields = Arrange.orderBy Prod.fst reordered := by
  have hsorted : (Arrange.orderBy Prod.fst reordered).Pairwise fun a b => a.1 ≤ b.1 :=
    Arrange.sorted_orderBy reordered
  have hperm' : reordered.Perm (Arrange.orderBy Prod.fst reordered) :=
    (Arrange.perm_orderBy reordered).symm
  have hnodup : ((Arrange.orderBy Prod.fst reordered).map Prod.fst).Nodup :=
    ((hperm.trans hperm').map Prod.fst).nodup_iff.1 hkeys
  -- with unique names the order is strict, so there is one sorted list
  have hne : (Arrange.orderBy Prod.fst reordered).Pairwise fun a b => a.1 ≠ b.1 :=
    List.pairwise_map.1 hnodup
  refine Arrange.orderBy_eq_of_perm (hperm.trans hperm') ?_
  exact hsorted.imp₂ (fun _ _ hle hne => lt_of_le_of_ne hle hne) hne

theorem printField_eq {field field' : S × Value S N} (h : SameField field field')
    (hvalue : ∀ w, Same field.2 w → canonicalJson J field.2 = canonicalJson J w) :
    printField J field = printField J field' := by
  cases h with
  | field h => exact Prod.ext rfl (hvalue _ h)

theorem canonicalJson_of_same {v w : Value S N} (hunique : UniqueKeys v) (h : Same v w) :
    canonicalJson J v = canonicalJson J w := by
  induction v using Value.elements generalizing w with
  | null =>
    cases h
    rfl
  | bool b =>
    cases h
    rfl
  | num n =>
    cases h
    rfl
  | str s =>
    cases h
    rfl
  | arr items ih =>
    cases hunique with
    | arr hunique =>
        cases h with
        | @arr _ items' h =>
            have htexts : items.map (canonicalJson J) = items'.map (canonicalJson J) := by
              rw [← List.forall₂_eq_eq_eq, List.forall₂_map_left_iff, List.forall₂_map_right_iff]
              exact forall₂_imp_mem h fun item hitem w hsame =>
                ih item hitem (hunique item hitem) hsame
            rw [canonicalJson_arr, canonicalJson_arr, htexts]
  | obj fields ih =>
    cases hunique with
    | obj hkeys hunique =>
        cases h with
        | @obj _ reordered fields' hperm h =>
            have hentries : reordered.map (printField J) = fields'.map (printField J) := by
              rw [← List.forall₂_eq_eq_eq, List.forall₂_map_left_iff, List.forall₂_map_right_iff]
              refine forall₂_imp_mem h ?_
              intro field hfield field' hsame
              have hmem := hperm.mem_iff.2 hfield
              exact printField_eq J hsame fun w hw => ih field hmem (hunique field hmem) hw
            have hsorted : (Arrange.orderBy Prod.fst fields).map (printField J) =
                (Arrange.orderBy Prod.fst fields').map (printField J) := by
              rw [orderBy_perm hkeys hperm, ← orderBy_printField, hentries, orderBy_printField]
            have htexts : (Arrange.orderBy Prod.fst fields).map (fieldText J) =
                (Arrange.orderBy Prod.fst fields').map (fieldText J) := by
              have happly := congrArg (List.map (entryText J)) hsorted
              rwa [List.map_map, List.map_map] at happly
            rw [canonicalJson_obj, canonicalJson_obj, htexts]

end Decoding

/-- The canonical text of a body is that of another one exactly when they differ in the order of keys
at most; and so is the hash, as long as no two texts in use collide. -/
theorem canonicalJson_unambiguous [LinearOrder S] (J : Stringify S N) {a b : Value S N}
    (ha : UniqueKeys a) :
    (canonicalJson J a = canonicalJson J b ↔ Same a b) ∧
      ∀ (sha256 : Text → Text) (used : Set Text), Set.InjOn sha256 used →
        canonicalJson J a ∈ used → canonicalJson J b ∈ used →
        (hashBody J sha256 a = hashBody J sha256 b ↔ Same a b) := by
  have htext : canonicalJson J a = canonicalJson J b ↔ Same a b := by
    constructor
    · intro h
      -- nothing follows either text
      have hstops : Stops endsValue [] := fun _ hc => absurd hc.symm (Option.some_ne_none _)
      exact (decodes_canonicalJson J a b [] [] hstops hstops (congrArg (· ++ []) h)).1
    · exact canonicalJson_of_same J ha
  refine ⟨htext, ?_⟩
  intro sha256 used hfree haused hbused
  rw [← htext]
  exact ⟨fun h => hfree haused hbused h, fun h => congrArg sha256 h⟩

/-! A serializer with these properties: strings over characters, ordered by them, and whole numbers. -/

theorem escaped_escapeChar (c : Char) : Escaped (Json.escapeChar c) := by
  unfold Json.escapeChar
  split_ifs with hquote hslash _ _ _ _ _ hcontrol
  iterate 7 exact .escape .nil
  · rcases Json.escape_digits hcontrol with ⟨h₃, h₄, htext, hall, _⟩
    have hplain : ∀ {h : Char}, isHexDigit h = true → h ≠ '"' ∧ h ≠ '\\' := by
      intro h hhex
      constructor <;>
        · rintro rfl
          exact absurd hhex (by decide)
    simp only [List.all_cons, List.all_nil, Bool.and_eq_true, and_true] at hall
    rcases hall with ⟨_, _, hthird, hfourth⟩
    rw [htext]
    exact .escape (.plain (by decide) (by decide) (.plain (by decide) (by decide)
      (.plain (hplain hthird).1 (hplain hthird).2
        (.plain (hplain hfourth).1 (hplain hfourth).2 .nil))))
  · exact .plain hquote hslash .nil

theorem escaped_flatMap (s : Text) : Escaped (s.flatMap Json.escapeChar) := by
  induction s with
  | nil => exact .nil
  | cons c s ih => exact (escaped_escapeChar c).append ih

theorem quote_injective : Function.Injective Json.quote := by
  intro s t h
  have happend : Json.quote s ++ [] = Json.quote t ++ [] := congrArg (· ++ []) h
  exact (Json.quote_append_inj happend).1

theorem quote_quoted (s : Text) : ∃ inside, Json.quote s = '"' :: inside ++ ['"'] ∧ Escaped inside :=
  ⟨s.flatMap Json.escapeChar, rfl, escaped_flatMap s⟩

theorem intText_chars (n : Int) :
    Json.intText n ≠ [] ∧ ∀ c ∈ Json.intText n, isNumberChar c = true := by
  have hdigit : ∀ c ∈ Nat.toDigits 10 n.natAbs, isNumberChar c = true := by
    intro c hc
    rw [isNumberChar, isDecDigit_iff.2 (mem_decDigits_of_mem_toDigits hc), Bool.true_or]
  unfold Json.intText
  split
  · exact ⟨List.cons_ne_nil _ _, List.forall_mem_cons.2 ⟨by decide, hdigit⟩⟩
  · exact ⟨Nat.toDigits_ne_nil, hdigit⟩

def sampleJson : Stringify Text Int where
  str := Json.quote
  num := Json.intText
  str_injective := quote_injective
  num_injective := fun _ _ h => Json.intText_injective h
  str_quoted := quote_quoted
  num_chars := intText_chars

/-- `{"to":"0xb","amount":5}` -/
def samplePayment : Value Text Int :=
  .obj [("to".toList, .str "0xb".toList), ("amount".toList, .num 5)]

theorem uniqueKeys_samplePayment : UniqueKeys samplePayment := by
  refine .obj (by decide) ?_
  intro field hfield
  rcases List.mem_cons.1 hfield with rfl | hfield
  · exact .str _
  · rw [List.mem_singleton.1 hfield]
    exact .num _

/-- The same payment, with its fields the other way round. -/
def reorderedPayment : Value Text Int :=
  .obj [("amount".toList, .num 5), ("to".toList, .str "0xb".toList)]

theorem same_reorderedPayment : Same samplePayment reorderedPayment :=
  .obj (List.Perm.swap _ _ _) (.cons (.field (.num 5)) (.cons (.field (.str _)) .nil))

theorem canonicalJson_unambiguous_samplePayment :
    UniqueKeys samplePayment ∧ Same samplePayment reorderedPayment ∧
      canonicalJson sampleJson samplePayment = canonicalJson sampleJson reorderedPayment :=
  ⟨uniqueKeys_samplePayment, same_reorderedPayment,
    (canonicalJson_unambiguous sampleJson uniqueKeys_samplePayment).1.2 same_reorderedPayment⟩

end Idempotency
end PaymentRail
