import PaymentRail.Strings.Number
import PaymentRail.Strings.Replace

/-!
# SanitizePipe — what is taken out of request bodies

This module embeds `common/pipes/sanitize.pipe.ts`.  The regular expressions of `stripHtml` are patterns
of `Strings.Replace`; letter case is that of ASCII, as it is for expressions without the `u` flag.

Field names are not sanitised.  A field named `__proto__` is assigned to a fresh object like any other,
which sets the prototype of that object.

- `Clean` : what sanitised strings are meant to be
- `clean_and_same_iff` : when a sanitised string is clean and stays as it is
-/

namespace PaymentRail
namespace Pipes

open Strings Strings.Replace

/-! ## The regular expressions -/

/-- `\w` -/
def isWordChar (c : Char) : Bool := c.isAlphanum || c = '_'

/-- `<[^>]*>` -/
def Tag (z : Text) : Prop := ∃ inside, z = '<' :: (inside ++ ['>']) ∧ '>' ∉ inside

def tagLength : Text → Nat
  | '<' :: rest => if '>' ∈ rest then (rest.takeWhile (· ≠ '>')).length + 2 else 0
  | _ => 0

/-- `on\w+\s*=`, in any letter case -/
def Handler (z : Text) : Prop :=
  ∃ o n word space, z = o :: n :: (word ++ (space ++ ['='])) ∧ o.toLower = 'o' ∧ n.toLower = 'n' ∧
    word ≠ [] ∧ (∀ c ∈ word, isWordChar c = true) ∧ ∀ c ∈ space, isWhiteSpace c = true

def handlerLength : Text → Nat
  | o :: n :: rest =>
      let word := rest.takeWhile isWordChar
      let space := (rest.dropWhile isWordChar).takeWhile isWhiteSpace
      match (rest.dropWhile isWordChar).dropWhile isWhiteSpace with
      | '=' :: _ =>
          if o.toLower = 'o' ∧ n.toLower = 'n' ∧ word ≠ [] then word.length + space.length + 3 else 0
      | _ => 0
  | _ => 0

/-- A word after each of its characters was mapped, as `toLowerCase` does. -/
def Spelled (fold : Char → Char) (word z : Text) : Prop := z.map fold = word

def spelledLength (fold : Char → Char) (word u : Text) : Nat :=
  if (u.take word.length).map fold = word then word.length else 0

/-! ## They are patterns -/

/-- The longest run of some characters, before one that is none of them. -/
theorem split_run {p : Char → Bool} {run rest : Text} (hrun : ∀ c ∈ run, p c = true)
    (hrest : ∀ c ∈ rest.head?, p c = false) :
    (run ++ rest).takeWhile p = run ∧ (run ++ rest).dropWhile p = rest := by
  rw [List.takeWhile_append_of_pos hrun, List.dropWhile_append_of_pos hrun]
  cases rest with
  | nil => simp
  | cons c rest => simp [hrest c rfl]

theorem tagLength_append {inside : Text} (h : '>' ∉ inside) (rest : Text) :
    tagLength ('<' :: (inside ++ '>' :: rest)) = inside.length + 2 := by
  have hrun : ∀ c ∈ inside, decide (c ≠ '>') = true := by
    intro c hc
    exact decide_eq_true fun heq => h (heq ▸ hc)
  have htake := (@split_run _ inside ('>' :: rest) hrun (by simp)).1
  rw [tagLength, if_pos (by simp), htake]

theorem tag_found (u : Text) (h : 0 < tagLength u) :
    ∃ z rest, u = z ++ rest ∧ tagLength u = z.length ∧ Tag z := by
  unfold tagLength at h
  split at h
  · rename_i more
    split at h
    · rename_i hmem
      rcases List.eq_append_cons_of_mem hmem with ⟨inside, rest, rfl, hinside⟩
      refine ⟨'<' :: (inside ++ ['>']), rest, by simp, ?_, inside, rfl, hinside⟩
      rw [tagLength_append hinside]
      simp
    · exact absurd h (Nat.lt_irrefl 0)
  · exact absurd h (Nat.lt_irrefl 0)

theorem tag_find (z rest : Text) (h : Tag z) : tagLength (z ++ rest) = z.length := by
  rcases h with ⟨inside, rfl, hinside⟩
  have hlength := tagLength_append hinside rest
  simpa using hlength

def tag : Pattern Char :=
  Pattern.of tagLength Tag tag_found tag_find (by rintro z ⟨inside, rfl, _⟩; exact List.cons_ne_nil _ _)

/-- Word characters, white space and `=` are three different things. -/
theorem not_word_of_space {c : Char} (h : isWhiteSpace c = true) : isWordChar c = false := by
  have hmem : c.toNat ∈ whiteSpace := List.contains_iff_mem.1 h
  have hnot : ∀ n ∈ whiteSpace, isWordChar (Char.ofNat n) = false := by decide +kernel
  have hchar := hnot _ hmem
  rwa [Char.ofNat_toNat] at hchar

theorem handlerLength_append {o n : Char} {word space : Text} (ho : o.toLower = 'o')
    (hn : n.toLower = 'n') (hne : word ≠ []) (hword : ∀ c ∈ word, isWordChar c = true)
    (hspace : ∀ c ∈ space, isWhiteSpace c = true) (rest : Text) :
    handlerLength (o :: n :: (word ++ (space ++ '=' :: rest))) = word.length + space.length + 3 := by
  have hafter : ∀ c ∈ (space ++ '=' :: rest).head?, isWordChar c = false := by
    intro c hc
    cases space with
    | nil =>
        cases hc
        decide
    | cons d space =>
        cases hc
        exact not_word_of_space (hspace _ List.mem_cons_self)
  rcases split_run hword hafter with ⟨htake, hdrop⟩
  have heq : ∀ c ∈ ('=' :: rest : Text).head?, isWhiteSpace c = false := by
    intro c hc
    cases hc
    decide
  rcases split_run hspace heq with ⟨htake', hdrop'⟩
  simp only [handlerLength, htake, hdrop, htake', hdrop']
  rw [if_pos ⟨ho, hn, hne⟩]

theorem handler_found (u : Text) (h : 0 < handlerLength u) :
    ∃ z rest, u = z ++ rest ∧ handlerLength u = z.length ∧ Handler z := by
  cases u with
  | nil => exact absurd h (Nat.lt_irrefl 0)
  | cons o u =>
      cases u with
      | nil => exact absurd h (Nat.lt_irrefl 0)
      | cons n more =>
          have hword := List.takeWhile_append_dropWhile (p := isWordChar) (l := more)
          have hspace := List.takeWhile_append_dropWhile (p := isWhiteSpace)
            (l := more.dropWhile isWordChar)
          simp only [handlerLength] at h
          -- the word and the white space are over at the `=`
          split at h
          · rename_i rest hrest
            split at h
            · rename_i hcond
              rcases hcond with ⟨ho, hn, hne⟩
              rw [hrest] at hspace
              rw [← hspace] at hword
              have hw : ∀ c ∈ more.takeWhile isWordChar, isWordChar c = true :=
                fun c hc => List.mem_takeWhile_imp hc
              have hs : ∀ c ∈ (more.dropWhile isWordChar).takeWhile isWhiteSpace,
                  isWhiteSpace c = true := fun c hc => List.mem_takeWhile_imp hc
              have hlength := handlerLength_append ho hn hne hw hs rest
              rw [hword] at hlength
              refine ⟨o :: n :: (more.takeWhile isWordChar ++
                ((more.dropWhile isWordChar).takeWhile isWhiteSpace ++ ['='])), rest, ?_, ?_,
                o, n, _, _, rfl, ho, hn, hne, hw, hs⟩
              · exact (congrArg (fun u => o :: n :: u) hword.symm).trans (by simp)
              · rw [hlength]
                simp
                omega
            · exact absurd h (Nat.lt_irrefl 0)
          · exact absurd h (Nat.lt_irrefl 0)

theorem handler_find (z rest : Text) (h : Handler z) : handlerLength (z ++ rest) = z.length := by
  rcases h with ⟨o, n, word, space, rfl, ho, hn, hne, hword, hspace⟩
  have hlength := handlerLength_append ho hn hne hword hspace rest
  have hassoc : (o :: n :: (word ++ (space ++ ['=']))) ++ rest =
      o :: n :: (word ++ (space ++ '=' :: rest)) := by simp
  rw [hassoc, hlength]
  simp
  omega

def handler : Pattern Char :=
  Pattern.of handlerLength Handler handler_found handler_find
    (by rintro z ⟨o, n, word, space, rfl, _⟩; exact List.cons_ne_nil _ _)

theorem spelled_found {fold : Char → Char} {word : Text} (u : Text)
    (h : 0 < spelledLength fold word u) :
    ∃ z rest, u = z ++ rest ∧ spelledLength fold word u = z.length ∧ Spelled fold word z := by
  unfold spelledLength at h ⊢
  split at h
  · rename_i hspelled
    refine ⟨u.take word.length, u.drop word.length, (List.take_append_drop _ u).symm, ?_, hspelled⟩
    have hlength := congrArg List.length hspelled
    rw [List.length_map] at hlength
    rw [if_pos hspelled, hlength]
  · exact absurd h (Nat.lt_irrefl 0)

theorem spelled_find {fold : Char → Char} {word : Text} (z rest : Text) (h : Spelled fold word z) :
    spelledLength fold word (z ++ rest) = z.length := by
  have hlength : z.length = word.length := by
    rw [← h, List.length_map]
  rw [spelledLength, ← hlength, List.take_left, if_pos (show z.map fold = word from h)]

theorem spelled_ne_nil {fold : Char → Char} {word : Text} (hword : word ≠ []) (z : Text)
    (h : Spelled fold word z) : z ≠ [] := by
  rintro rfl
  exact hword h.symm

/-- A word, letter by letter up to `fold`. -/
def spelled (fold : Char → Char) (word : Text) (hword : word ≠ []) : Pattern Char :=
  Pattern.of (spelledLength fold word) (Spelled fold word) spelled_found spelled_find
    (spelled_ne_nil hword)

theorem matches_tag : tag.Matches = Tag := funext fun _ => propext Pattern.matches_of

theorem matches_handler : handler.Matches = Handler := funext fun _ => propext Pattern.matches_of

theorem matches_spelled (fold : Char → Char) (word : Text) (hword : word ≠ []) :
    (spelled fold word hword).Matches = Spelled fold word :=
  funext fun _ => propext Pattern.matches_of

/-! ## The functions of the source -/

def javascript : Text := "javascript:".toList

/-- `/javascript:/gi` -/
def script : Pattern Char := spelled Char.toLower javascript (by decide)

def ltEntity : Pattern Char := spelled id "&lt;".toList (by decide)

def gtEntity : Pattern Char := spelled id "&gt;".toList (by decide)

def ampEntity : Pattern Char := spelled id "&amp;".toList (by decide)

theorem nil_shorter (p : Pattern Char) (z : Text) (h : p.Matches z) : ([] : Text).length < z.length :=
  List.length_pos_iff.2 h.1

theorem one_shorter {fold : Char → Char} {word : Text} {hword : word ≠ []} (new : Char)
    (hlength : 1 < word.length) (z : Text) (h : (spelled fold word hword).Matches z) :
    [new].length < z.length := by
  rw [matches_spelled] at h
  rwa [← h, List.length_map] at hlength

/-- The replacements of `stripHtml`, in their order. -/
def stages : List (Stage Char) :=
  [⟨tag, [], nil_shorter tag⟩,
    ⟨ltEntity, ['<'], one_shorter '<' (by decide)⟩,
    ⟨gtEntity, ['>'], one_shorter '>' (by decide)⟩,
    ⟨ampEntity, ['&'], one_shorter '&' (by decide)⟩,
    ⟨script, [], nil_shorter script⟩,
    ⟨handler, [], nil_shorter handler⟩]

def stripHtml (input : Text) : Text := stages.foldl (fun text stage => stage.apply text) input

/-- What `sanitize` makes of a string. -/
def sanitizeText (value : Text) : Text := trim (stripHtml value)

/-- A body, as it was parsed or as the pipe returns it.  An object has fields of its own, and a
prototype when one was assigned to it; parsing assigns none. -/
inductive Body (N : Type) where
  | null
  | bool (b : Bool)
  | num (n : N)
  | str (s : Text)
  | arr (items : List (Body N))
  | obj (prototype : Option (Body N)) (fields : List (Text × Body N))

section Bodies

variable {N : Type}

/-- `typeof value === 'object'` -/
def Body.isObject : Body N → Bool
  | .null => true
  | .arr _ => true
  | .obj _ _ => true
  | _ => false

/-- `sanitized[key] = value`, for an object given by its prototype and its own fields.  What is assigned
to `__proto__` becomes the prototype when it is an object or `null`, and is dropped otherwise. -/
def assign (key : Text) (value : Body N) (sanitized : Option (Body N) × List (Text × Body N)) :
    Option (Body N) × List (Text × Body N) :=
  if key = "__proto__".toList then
    if value.isObject then (some value, sanitized.2) else sanitized
  else (sanitized.1, (key, value) :: sanitized.2)

mutual

def sanitize : Body N → Body N
  | .str value => .str (sanitizeText value)
  | .arr items => .arr (sanitizeItems items)
  -- `Object.entries` gives the fields of the object itself
  | .obj _ fields => .obj (sanitizeFields fields).1 (sanitizeFields fields).2
  | value => value

def sanitizeItems : List (Body N) → List (Body N)
  | [] => []
  | item :: items => sanitize item :: sanitizeItems items

/-- The names of the fields differ, so the order of the assignments shows in that of the fields only. -/
def sanitizeFields : List (Text × Body N) → Option (Body N) × List (Text × Body N)
  | [] => (none, [])
  | (key, value) :: fields => assign key (sanitize value) (sanitizeFields fields)

end

/-- `metadata.type` -/
inductive ParamType where
  | body
  | query
  | param
  | custom
  deriving DecidableEq

def transform (value : Body N) (type : ParamType) : Body N :=
  if type ≠ .body then value else sanitize value

mutual

/-- The strings of a value, at every level: those that are read through a prototype, too. -/
def strings : Body N → List Text
  | .str value => [value]
  | .arr items => stringsItems items
  | .obj prototype fields => stringsPrototype prototype ++ stringsFields fields
  | _ => []

def stringsItems : List (Body N) → List Text
  | [] => []
  | item :: items => strings item ++ stringsItems items

def stringsPrototype : Option (Body N) → List Text
  | none => []
  | some prototype => strings prototype

def stringsFields : List (Text × Body N) → List Text
  | [] => []
  | (_, value) :: fields => strings value ++ stringsFields fields

end

mutual

/-- The strings that stand in a value itself, at every level.  What a field named `__proto__` has is no
part of the object. -/
def ownStrings : Body N → List Text
  | .str value => [value]
  | .arr items => ownStringsItems items
  | .obj _ fields => ownStringsFields fields
  | _ => []

def ownStringsItems : List (Body N) → List Text
  | [] => []
  | item :: items => ownStrings item ++ ownStringsItems items

def ownStringsFields : List (Text × Body N) → List Text
  | [] => []
  | (key, value) :: fields =>
      (if key = "__proto__".toList then [] else ownStrings value) ++ ownStringsFields fields

end

/-- No field named `__proto__`, at any level, has an object or `null` for its value. -/
inductive NoPrototype : Body N → Prop
  | null : NoPrototype .null
  | bool (b : Bool) : NoPrototype (.bool b)
  | num (n : N) : NoPrototype (.num n)
  | str (s : Text) : NoPrototype (.str s)
  | arr {items : List (Body N)} (h : ∀ item ∈ items, NoPrototype item) : NoPrototype (.arr items)
  | obj {prototype : Option (Body N)} {fields : List (Text × Body N)}
      (hkeys : ∀ field ∈ fields, field.1 = "__proto__".toList → field.2.isObject = false)
      (h : ∀ field ∈ fields, NoPrototype field.2) : NoPrototype (.obj prototype fields)

theorem noPrototype_of_not_object {v : Body N} (h : v.isObject = false) : NoPrototype v := by
  cases v with
  | null => exact .null
  | bool b => exact .bool b
  | num n => exact .num n
  | str s => exact .str s
  | arr items => cases h
  | obj prototype fields => cases h

theorem noPrototype_arr_iff {items : List (Body N)} :
    NoPrototype (.arr items) ↔ ∀ item ∈ items, NoPrototype item := by
  constructor
  · rintro ⟨h⟩
    assumption
  · exact .arr

/-- No prototype is assigned: neither to the object itself nor to what its other fields have. -/
theorem noPrototype_obj_iff {prototype : Option (Body N)} {fields : List (Text × Body N)} :
    NoPrototype (.obj prototype fields) ↔
      (∀ field ∈ fields, field.1 = "__proto__".toList → field.2.isObject = false) ∧
        ∀ field ∈ fields, field.1 ≠ "__proto__".toList → NoPrototype field.2 := by
  constructor
  · intro h
    cases h with
    | obj hkeys h => exact ⟨hkeys, fun field hfield _ => h field hfield⟩
  · rintro ⟨hkeys, h⟩
    refine .obj hkeys ?_
    intro field hfield
    by_cases hproto : field.1 = "__proto__".toList
    · exact noPrototype_of_not_object (hkeys field hfield hproto)
    · exact h field hfield hproto

/-! ## Bodies are sanitised string by string -/

/-- Every value from its elements. -/
@[elab_as_elim]
theorem Body.elements {P : Body N → Prop} (null : P .null) (bool : ∀ b, P (.bool b))
    (num : ∀ n, P (.num n)) (str : ∀ s, P (.str s))
    (arr : ∀ items, (∀ item ∈ items, P item) → P (.arr items))
    (obj : ∀ prototype fields, (∀ field ∈ fields, P field.2) → P (.obj prototype fields))
    (v : Body N) : P v := by
  refine @Body.rec N P (fun items => ∀ item ∈ items, P item) (fun _ => True)
    (fun fields => ∀ field ∈ fields, P field.2) (fun field => P field.2)
    null bool num str arr (fun prototype fields _ => obj prototype fields) ?_ ?_ ?_ ?_ ?_ ?_ ?_ v
  · exact fun _ h => absurd h List.not_mem_nil
  · exact fun _ _ hitem hitems => List.forall_mem_cons.2 ⟨hitem, hitems⟩
  · exact trivial
  · exact fun _ _ => trivial
  · exact fun _ h => absurd h List.not_mem_nil
  · exact fun _ _ hfield hfields => List.forall_mem_cons.2 ⟨hfield, hfields⟩
  · exact fun _ _ h => h

theorem isObject_sanitize (v : Body N) : (sanitize v).isObject = v.isObject := by
  cases v <;> simp only [sanitize, Body.isObject]

/-- A prototype is assigned by a field of that name that has an object or `null`. -/
theorem sanitizeFields_prototype {fields : List (Text × Body N)} :
    (sanitizeFields fields).1 = none ↔
      ∀ field ∈ fields, field.1 = "__proto__".toList → field.2.isObject = false := by
  induction fields with
  | nil => simp [sanitizeFields]
  | cons field fields ih =>
      rcases field with ⟨key, value⟩
      rw [sanitizeFields, assign, List.forall_mem_cons, ← ih, isObject_sanitize]
      by_cases hproto : key = "__proto__".toList
      · rw [if_pos hproto]
        cases value.isObject with
        | true =>
            rw [if_pos rfl]
            exact iff_of_false (Option.some_ne_none _) fun h => Bool.noConfusion (h.1 hproto)
        | false =>
            rw [if_neg Bool.false_ne_true]
            exact ⟨fun h => ⟨fun _ => rfl, h⟩, fun h => h.2⟩
      · rw [if_neg hproto]
        exact ⟨fun h => ⟨fun heq => absurd heq hproto, h⟩, fun h => h.2⟩

/-- The fields that are left have other names. -/
theorem sanitizeFields_names (fields : List (Text × Body N)) :
    ∀ field ∈ (sanitizeFields fields).2, field.1 ≠ "__proto__".toList := by
  induction fields with
  | nil => exact fun _ h => absurd h List.not_mem_nil
  | cons field fields ih =>
      rcases field with ⟨key, value⟩
      rw [sanitizeFields, assign]
      split
      · split <;> exact ih
      · rename_i hproto
        exact List.forall_mem_cons.2 ⟨hproto, ih⟩

theorem sanitizeFields_cons {key : Text} {value : Body N} {fields : List (Text × Body N)} :
    (sanitizeFields ((key, value) :: fields)).2 =
      if key = "__proto__".toList then (sanitizeFields fields).2
      else (key, sanitize value) :: (sanitizeFields fields).2 := by
  rw [sanitizeFields, assign]
  by_cases hproto : key = "__proto__".toList
  · rw [if_pos hproto, if_pos hproto]
    split <;> rfl
  · rw [if_neg hproto, if_neg hproto]

/-- A body comes out with strings that are `C`, and as a second pass leaves it, exactly if no prototype
is assigned and each of its strings comes out so. -/
theorem sanitize_iff {C : Text → Prop} (v : Body N) :
    ((∀ s ∈ strings (sanitize v), C s) ∧ sanitize (sanitize v) = sanitize v) ↔
      NoPrototype v ∧
        ∀ s ∈ ownStrings v, C (sanitizeText s) ∧ sanitizeText (sanitizeText s) = sanitizeText s := by
  induction v using Body.elements with
  | null => simp [sanitize, strings, ownStrings, NoPrototype.null]
  | bool b => simp [sanitize, strings, ownStrings, NoPrototype.bool]
  | num n => simp [sanitize, strings, ownStrings, NoPrototype.num]
  | str s => simp [sanitize, strings, ownStrings, NoPrototype.str]
  | arr items ih =>
      simp only [sanitize, strings, ownStrings, Body.arr.injEq, noPrototype_arr_iff]
      induction items with
      | nil => simp [sanitizeItems, stringsItems, ownStringsItems]
      | cons item items ihitems =>
          rcases List.forall_mem_cons.1 ih with ⟨hitem, hitems⟩
          simp only [sanitizeItems, stringsItems, ownStringsItems, List.forall_mem_append,
            List.forall_mem_cons, List.cons.injEq]
          -- the item apart from the others, and together again
          rw [and_and_and_comm, hitem, ihitems hitems, and_and_and_comm]
  | obj prototype fields ih =>
      have hnames := sanitizeFields_prototype.2
        fun field hfield heq => absurd heq (sanitizeFields_names fields field hfield)
      have hpair : sanitizeFields (sanitizeFields fields).2 = sanitizeFields fields ↔
          (sanitizeFields fields).1 = none ∧
            (sanitizeFields (sanitizeFields fields).2).2 = (sanitizeFields fields).2 := by
        rw [Prod.ext_iff, hnames, eq_comm (a := none)]
      have hfields : ((∀ s ∈ stringsFields (sanitizeFields fields).2, C s) ∧
          (sanitizeFields (sanitizeFields fields).2).2 = (sanitizeFields fields).2) ↔
          (∀ field ∈ fields, field.1 ≠ "__proto__".toList → NoPrototype field.2) ∧
            ∀ s ∈ ownStringsFields fields,
              C (sanitizeText s) ∧ sanitizeText (sanitizeText s) = sanitizeText s := by
        clear hnames hpair
        induction fields with
        | nil => simp [sanitizeFields, stringsFields, ownStringsFields]
        | cons field fields ihfields =>
            rcases List.forall_mem_cons.1 ih with ⟨hfield, hrest⟩
            rcases field with ⟨key, value⟩
            rw [sanitizeFields_cons, ownStringsFields, List.forall_mem_cons]
            by_cases hproto : key = "__proto__".toList
            · have hskip : (key ≠ "__proto__".toList → NoPrototype value) ↔ True :=
                iff_true_intro fun hne => absurd hproto hne
              rw [if_pos hproto, if_pos hproto, List.nil_append, ihfields hrest, hskip, true_and]
            · have hown : (key ≠ "__proto__".toList → NoPrototype value) ↔ NoPrototype value :=
                ⟨fun h => h hproto, fun h _ => h⟩
              rw [if_neg hproto, if_neg hproto, stringsFields, sanitizeFields_cons, if_neg hproto, hown]
              simp only [List.forall_mem_append, List.cons.injEq, Prod.mk.injEq, true_and]
              rw [and_and_and_comm, hfield, ihfields hrest, and_and_and_comm]
      rw [noPrototype_obj_iff, ← sanitizeFields_prototype]
      simp only [sanitize, strings, ownStrings, Body.obj.injEq, List.forall_mem_append]
      rw [← Prod.ext_iff, hpair]
      constructor
      · rintro ⟨⟨_, hclean⟩, hnone, hsame⟩
        rcases hfields.1 ⟨hclean, hsame⟩ with ⟨hproto, hstrings⟩
        exact ⟨⟨hnone, hproto⟩, hstrings⟩
      · rintro ⟨⟨hnone, hproto⟩, hstrings⟩
        rcases hfields.2 ⟨hproto, hstrings⟩ with ⟨hclean, hsame⟩
        refine ⟨⟨?_, hclean⟩, hnone, hsame⟩
        rw [hnone]
        exact fun _ h => absurd h List.not_mem_nil

end Bodies

/-! ## White space around a text -/

/-- Texts that neither begin nor end with white space are not trimmed away. -/
theorem has_trim_iff {Y : Text → Prop}
    (hY : ∀ z, Y z → z ≠ [] ∧ (∀ c ∈ z.head?, isWhiteSpace c = false) ∧
      ∀ c ∈ z.getLast?, isWhiteSpace c = false) (s : Text) :
    Has Y (trim s) ↔ Has Y s := by
  constructor
  · exact fun h => h.of_within (trim_within s)
  · rintro ⟨z, hz, p, q, hpq⟩
    rcases hY z hz with ⟨hne, hhead, hlast⟩
    rcases exists_trim s with ⟨a, b, hs, ha, hb⟩
    refine ⟨z, hz, ?_⟩
    have hsplit : a ++ (trim s ++ b) = p ++ (z ++ q) := by
      rw [← hs, ← hpq, List.append_assoc]
    -- the white space in front is over where the text begins
    have hfront : ∃ k, trim s ++ b = k ++ (z ++ q) := by
      rcases List.append_eq_append_iff.1 hsplit with ⟨k, _, hk⟩ | ⟨k, hk, hkz⟩
      · exact ⟨k, hk⟩
      · cases k with
        | nil => exact ⟨[], hkz.symm⟩
        | cons c k =>
            have hc : isWhiteSpace c = true := ha c (by simp [hk])
            have hhead' : c ∈ z.head? := by
              cases z with
              | nil => exact absurd rfl hne
              | cons d z => rw [(List.cons.inj hkz).1]; rfl
            exact absurd hc (by simp [hhead c hhead'])
    rcases hfront with ⟨k, hk⟩
    -- and that behind it begins after it
    rw [← List.append_assoc] at hk
    rcases List.append_eq_append_iff.1 hk with ⟨m, hm, hmq⟩ | ⟨m, hm, _⟩
    · cases m with
      | nil =>
          rw [List.append_nil] at hm
          exact ⟨k, [], by rw [List.append_nil, hm]⟩
      | cons c m =>
          rcases exists_getLast (List.cons_ne_nil c m) with ⟨e, he, hem⟩
          have hwhite : isWhiteSpace e = true := hb e (by rw [hmq]; exact List.mem_append_left q hem)
          have hzlast : e ∈ z.getLast? := by
            have hlast' := congrArg List.getLast? hm
            rw [List.getLast?_append_of_ne_nil _ hne,
              List.getLast?_append_of_ne_nil _ (List.cons_ne_nil c m)] at hlast'
            rw [hlast']
            exact he
          exact absurd hwhite (by simp [hlast e hzlast])
    · exact ⟨k, m, hm.symm⟩

/-! ## Passing over a text again -/

theorem trim_foldl_eq_self_iff (stages : List (Stage Char)) (s : Text) :
    trim (stages.foldl (fun text stage => stage.apply text) s) = s ↔
      trim s = s ∧ ∀ stage ∈ stages, ¬ Has stage.pattern.Matches s := by
  constructor
  · intro h
    rcases foldl_apply stages s with ⟨hnone, hsame⟩ | hshorter
    · rw [hsame] at h
      exact ⟨h, hnone⟩
    · -- it cannot get longer again
      have htrim := (trim_within (stages.foldl (fun text stage => stage.apply text) s)).length_le
      rw [h] at htrim
      exact absurd hshorter (Nat.not_lt.2 htrim)
  · rintro ⟨htrim, hnone⟩
    rw [foldl_apply_eq_self hnone, htrim]

/-- A second pass changes nothing exactly when no expression matches any more. -/
theorem sanitizeText_eq_self_iff (s : Text) :
    sanitizeText s = s ↔ trim s = s ∧ ∀ stage ∈ stages, ¬ Has stage.pattern.Matches s := by
  rw [sanitizeText, stripHtml]
  exact trim_foldl_eq_self_iff stages s

/-- The entities that are decoded. -/
def Entity (z : Text) : Prop :=
  Spelled id "&lt;".toList z ∨ Spelled id "&gt;".toList z ∨ Spelled id "&amp;".toList z

def Script (z : Text) : Prop := Spelled Char.toLower javascript z

theorem has_or {Y Y' : Text → Prop} {u : Text} : Has (fun z => Y z ∨ Y' z) u ↔ Has Y u ∨ Has Y' u := by
  constructor
  · rintro ⟨z, hz | hz, hinfix⟩
    · exact Or.inl ⟨z, hz, hinfix⟩
    · exact Or.inr ⟨z, hz, hinfix⟩
  · rintro (⟨z, hz, hinfix⟩ | ⟨z, hz, hinfix⟩)
    · exact ⟨z, Or.inl hz, hinfix⟩
    · exact ⟨z, Or.inr hz, hinfix⟩

/-- No stage has anything to do. -/
theorem stages_idle_iff (s : Text) :
    (∀ stage ∈ stages, ¬ Has stage.pattern.Matches s) ↔
      ¬ Has Tag s ∧ ¬ Has Entity s ∧ ¬ Has Script s ∧ ¬ Has Handler s := by
  have hentity : Has Entity s ↔ Has (Spelled id "&lt;".toList) s ∨ Has (Spelled id "&gt;".toList) s ∨
      Has (Spelled id "&amp;".toList) s := by
    rw [← has_or, ← has_or]
    rfl
  simp only [stages, List.forall_mem_cons, List.not_mem_nil, false_imp_iff, implies_true, and_true,
    matches_tag, matches_handler, ltEntity, gtEntity, ampEntity, script, matches_spelled, hentity,
    not_or]
  constructor
  · rintro ⟨htag, hlt, hgt, hamp, hscript, hhandler⟩
    exact ⟨htag, ⟨hlt, hgt, hamp⟩, hscript, hhandler⟩
  · rintro ⟨htag, ⟨hlt, hgt, hamp⟩, hscript, hhandler⟩
    exact ⟨htag, hlt, hgt, hamp, hscript, hhandler⟩

/-- What a sanitised string is meant to be. -/
structure Clean (s : Text) : Prop where
  tags : ¬ Has Tag s
  scripts : ¬ Has Script s
  handlers : ¬ Has Handler s

theorem clean_and_same_iff (s : Text) :
    Clean (sanitizeText s) ∧ sanitizeText (sanitizeText s) = sanitizeText s ↔
      ¬ Has Tag (sanitizeText s) ∧ ¬ Has Entity (sanitizeText s) ∧ ¬ Has Script (sanitizeText s) ∧
        ¬ Has Handler (sanitizeText s) := by
  have htrim : trim (sanitizeText s) = sanitizeText s := trim_trim _
  -- trimming twice is trimming once, so only the expressions are left to look at
  rw [sanitizeText_eq_self_iff, stages_idle_iff]
  constructor
  · exact fun h => h.2.2
  · exact fun h => ⟨⟨h.1, h.2.2.1, h.2.2.2⟩, htrim, h⟩

end Pipes
end PaymentRail
