import PaymentRail.Strings.Buffer

/-!
# Json — `JSON.stringify` of flat objects and `JSON.parse`

* `stringify` prints an object whose values are strings, whole numbers and nulls;
* `parse` reads any JSON text.  Numbers are kept as they are written.

A string is read to code units first, since an escape may name half of a surrogate pair
(`parseUnits`); a half that stays alone reads as the replacement character.

Reading back a printed object of strings gives its fields again (`parse_stringify`).
-/

namespace PaymentRail
namespace Strings

inductive Json where
  | null
  | bool (value : Bool)
  | num (text : Text)
  | str (text : Text)
  | arr (items : List Json)
  | obj (fields : List (Text × Json))

namespace Json

/-- `json[key]`, the last one where a key is repeated. -/
def get : Json → Text → Option Json
  | .obj fields, key => (fields.reverse.find? fun field => field.1 = key).map Prod.snd
  | _, _ => none

/-! ## Printing -/

/-- A value of a flat object. -/
inductive Scalar where
  | null
  | num (value : Int)
  | str (text : Text)
  deriving DecidableEq

/-- `String(n)` -/
def intText (n : Int) : Text :=
  if n < 0 then '-' :: Nat.toDigits 10 n.natAbs else Nat.toDigits 10 n.natAbs

def escapeChar (c : Char) : Text :=
  if c = '"' then ['\\', '"']
  else if c = '\\' then ['\\', '\\']
  else if c.toNat = 8 then ['\\', 'b']
  else if c.toNat = 9 then ['\\', 't']
  else if c.toNat = 10 then ['\\', 'n']
  else if c.toNat = 12 then ['\\', 'f']
  else if c.toNat = 13 then ['\\', 'r']
  else if c.toNat < 0x20 then '\\' :: 'u' :: padStart 4 '0' (Nat.toDigits 16 c.toNat)
  else [c]

def quote (s : Text) : Text := '"' :: s.flatMap escapeChar ++ ['"']

def scalarText : Scalar → Text
  | .null => ['n', 'u', 'l', 'l']
  | .num n => intText n
  | .str s => quote s

def fieldText (field : Text × Scalar) : Text := quote field.1 ++ ':' :: scalarText field.2

/-- `JSON.stringify(object)` -/
def stringify (fields : List (Text × Scalar)) : Text :=
  '{' :: List.intercalate [','] (fields.map fieldText) ++ ['}']

/-! ## Numbers -/

theorem intText_natCast (n : Nat) : intText n = Nat.toDigits 10 n := by
  unfold intText
  rw [if_neg (Int.not_lt.2 (Int.natCast_nonneg n)), Int.natAbs_natCast]

theorem not_mem_intText {c : Char} (hc : isDecDigit c = false) (hminus : c ≠ '-') (n : Int) :
    c ∉ intText n := by
  unfold intText
  split
  · intro hmem
    rcases List.mem_cons.1 hmem with h | h
    · exact hminus h
    · exact not_mem_toDigits hc _ h
  · exact not_mem_toDigits hc _

theorem intText_injective {m n : Int} (h : intText m = intText n) : m = n := by
  have hsign : ∀ (k l : Nat), '-' :: Nat.toDigits 10 k ≠ Nat.toDigits 10 l := by
    intro k l heq
    exact not_mem_toDigits (c := '-') (by decide) l (heq ▸ List.mem_cons_self)
  unfold intText at h
  split at h
  · split at h
    · have habs := toDigits_injective (List.cons.inj h).2
      omega
    · exact absurd h (hsign _ _)
  · split at h
    · exact absurd h.symm (hsign _ _)
    · have habs := toDigits_injective h
      omega

/-! ## Reading -/

def skipSpace (s : Text) : Text := s.dropWhile fun c => [' ', '\t', '\n', '\r'].contains c

/-- The character after a backslash. -/
def unescape (c : Char) : Option Nat :=
  if c = '"' ∨ c = '\\' ∨ c = '/' then some c.toNat
  else if c = 'b' then some 8
  else if c = 't' then some 9
  else if c = 'n' then some 10
  else if c = 'f' then some 12
  else if c = 'r' then some 13
  else none

/-- One more code unit in front of a string. -/
def pushUnit (unit : Nat) (read : List Nat × Text) : List Nat × Text := (unit :: read.1, read.2)

/-- The code units of a string up to its closing quote, and what follows. -/
def parseUnits : Text → Option (List Nat × Text)
  | [] => none
  | c :: rest =>
      if c = '"' then some ([], rest)
      else if c = '\\' then
        match rest with
        | [] => none
        | e :: more =>
            if e = 'u' then
              match more with
              | h₁ :: h₂ :: h₃ :: h₄ :: tail =>
                  if [h₁, h₂, h₃, h₄].all isHexDigit then
                    (parseUnits tail).map (pushUnit (value 16 [h₁, h₂, h₃, h₄]))
                  else none
              | _ => none
            else
              match unescape e with
              | some unit => (parseUnits more).map (pushUnit unit)
              | none => none
      else if c.toNat < 0x20 then none
      else (parseUnits rest).map (pushUnit c.toNat)

def isHigh (unit : Nat) : Bool := 0xD800 ≤ unit && unit < 0xDC00

def isLow (unit : Nat) : Bool := 0xDC00 ≤ unit && unit < 0xE000

/-- Code units as characters: a pair of surrogates is one. -/
def unitsText : List Nat → Text
  | [] => []
  | u :: rest =>
      if isHigh u then
        match rest with
        | [] => [replacement]
        | v :: more =>
            if isLow v then
              Char.ofNat (0x10000 + (u - 0xD800) * 0x400 + (v - 0xDC00)) :: unitsText more
            else replacement :: unitsText (v :: more)
      else if isLow u then replacement :: unitsText rest
      else Char.ofNat u :: unitsText rest

def parseString (s : Text) : Option (Text × Text) :=
  (parseUnits s).map fun read => (unitsText read.1, read.2)

/-- Digits, at least one. -/
def parseDigits (s : Text) : Option (Text × Text) :=
  match s.span isDecDigit with
  | ([], _) => none
  | read => some read

def parseFraction : Text → Option (Text × Text)
  | '.' :: rest => (parseDigits rest).map fun read => ('.' :: read.1, read.2)
  | rest => some ([], rest)

def parseSign : Text → Text × Text
  | '+' :: rest => (['+'], rest)
  | '-' :: rest => (['-'], rest)
  | rest => ([], rest)

def parseExponent : Text → Option (Text × Text)
  | [] => some ([], [])
  | c :: rest =>
      if c = 'e' ∨ c = 'E' then
        (parseDigits (parseSign rest).2).map fun read =>
          (c :: (parseSign rest).1 ++ read.1, read.2)
      else some ([], c :: rest)

def parseNumber (s : Text) : Option (Text × Text) :=
  let sign := if s.head? = some '-' then ['-'] else []
  match parseDigits (s.drop sign.length) with
  | none => none
  | some (digits, rest) =>
      -- no leading zeros
      if digits.head? = some '0' ∧ digits.length ≠ 1 then none
      else
        match parseFraction rest with
        | none => none
        | some (fraction, rest) =>
            (parseExponent rest).map fun read => (sign ++ digits ++ fraction ++ read.1, read.2)

/-- A word, and what follows it. -/
def parseWord (word : Text) (json : Json) (s : Text) : Option (Json × Text) :=
  if word.isPrefixOf s then some (json, s.drop word.length) else none

mutual

/-- A value at the head of the text, and what follows. -/
def parseValue : Nat → Text → Option (Json × Text)
  | 0, _ => none
  | _ + 1, [] => none
  | fuel + 1, c :: rest =>
      if c = '"' then (parseString rest).map fun read => (.str read.1, read.2)
      else if c = '{' then
        if (skipSpace rest).head? = some '}' then some (.obj [], (skipSpace rest).drop 1)
        else (parseFields fuel (skipSpace rest)).map fun read => (.obj read.1, read.2)
      else if c = '[' then
        if (skipSpace rest).head? = some ']' then some (.arr [], (skipSpace rest).drop 1)
        else (parseItems fuel (skipSpace rest)).map fun read => (.arr read.1, read.2)
      else if c = 'n' then parseWord ['n', 'u', 'l', 'l'] .null (c :: rest)
      else if c = 't' then parseWord ['t', 'r', 'u', 'e'] (.bool true) (c :: rest)
      else if c = 'f' then parseWord ['f', 'a', 'l', 's', 'e'] (.bool false) (c :: rest)
      else (parseNumber (c :: rest)).map fun read => (.num read.1, read.2)

/-- The items of an array up to its closing bracket. -/
def parseItems : Nat → Text → Option (List Json × Text)
  | 0, _ => none
  | fuel + 1, s =>
      match parseValue fuel s with
      | none => none
      | some (item, rest) =>
          match skipSpace rest with
          | ',' :: more =>
              (parseItems fuel (skipSpace more)).map fun read => (item :: read.1, read.2)
          | ']' :: more => some ([item], more)
          | _ => none

/-- The fields of an object up to its closing brace. -/
def parseFields : Nat → Text → Option (List (Text × Json) × Text)
  | 0, _ => none
  | _ + 1, [] => none
  | fuel + 1, c :: s =>
      if c = '"' then
        match parseString s with
        | none => none
        | some (key, rest) =>
            match skipSpace rest with
            | ':' :: rest =>
                match parseValue fuel (skipSpace rest) with
                | none => none
                | some (json, rest) =>
                    match skipSpace rest with
                    | ',' :: more =>
                        (parseFields fuel (skipSpace more)).map fun read =>
                          ((key, json) :: read.1, read.2)
                    | '}' :: more => some ([(key, json)], more)
                    | _ => none
            | _ => none
      else none

end

/-- `JSON.parse(text)`; `none` where it throws. -/
def parse (text : Text) : Option Json :=
  match parseValue (2 * text.length + 2) (skipSpace text) with
  | some (json, rest) => if skipSpace rest = [] then some json else none
  | none => none

/-! ## Reading back -/

theorem unitsText_map_toNat (s : Text) : unitsText (s.map Char.toNat) = s := by
  induction s with
  | nil =>
      rfl
  | cons c s ih =>
      have hvalid : c.toNat < 0xD800 ∨ 0xDFFF < c.toNat ∧ c.toNat < 0x110000 := c.valid
      have hhigh : isHigh c.toNat = false := by
        simp only [isHigh, Bool.and_eq_false_imp, decide_eq_true_eq, decide_eq_false_iff_not]
        omega
      have hlow : isLow c.toNat = false := by
        simp only [isLow, Bool.and_eq_false_imp, decide_eq_true_eq, decide_eq_false_iff_not]
        omega
      rw [List.map_cons, unitsText.eq_def]
      simp [hhigh, hlow, Char.ofNat_toNat, ih]

/-- Below 32 an escape has two zeros and two digits. -/
theorem escape_digits {n : Nat} (h : n < 0x20) : ∃ h₃ h₄,
    padStart 4 '0' (Nat.toDigits 16 n) = ['0', '0', h₃, h₄] ∧
      ['0', '0', h₃, h₄].all isHexDigit = true ∧ value 16 ['0', '0', h₃, h₄] = n := by
  interval_cases n <;> exact ⟨_, _, rfl, rfl, rfl⟩

section Escapes

variable {c : Char} (rest : Text)

theorem parseUnits_plain (hquote : c ≠ '"') (hslash : c ≠ '\\') (hcontrol : ¬c.toNat < 0x20) :
    parseUnits (c :: rest) = (parseUnits rest).map (pushUnit c.toNat) := by
  rw [parseUnits.eq_def]
  simp [hquote, hslash, hcontrol]

theorem parseUnits_unescape {unit : Nat} (hu : c ≠ 'u') (h : unescape c = some unit) :
    parseUnits ('\\' :: c :: rest) = (parseUnits rest).map (pushUnit unit) := by
  rw [parseUnits.eq_def]
  simp [hu, h]

theorem parseUnits_escapeChar (c : Char) :
    parseUnits (escapeChar c ++ rest) = (parseUnits rest).map (pushUnit c.toNat) := by
  unfold escapeChar
  split
  · rename_i h
    subst h
    exact parseUnits_unescape rest (by decide) rfl
  split
  · rename_i h
    subst h
    exact parseUnits_unescape rest (by decide) rfl
  split
  · rename_i h
    rw [h]
    exact parseUnits_unescape rest (by decide) rfl
  split
  · rename_i h
    rw [h]
    exact parseUnits_unescape rest (by decide) rfl
  split
  · rename_i h
    rw [h]
    exact parseUnits_unescape rest (by decide) rfl
  split
  · rename_i h
    rw [h]
    exact parseUnits_unescape rest (by decide) rfl
  split
  · rename_i h
    rw [h]
    exact parseUnits_unescape rest (by decide) rfl
  split
  · rename_i h
    rcases escape_digits h with ⟨h₃, h₄, htext, hall, hvalue⟩
    have hread : parseUnits ('\\' :: 'u' :: '0' :: '0' :: h₃ :: h₄ :: rest) =
        (parseUnits rest).map (pushUnit (value 16 ['0', '0', h₃, h₄])) := by
      rw [parseUnits.eq_def]
      simp [hall]
    simpa [htext, hvalue] using hread
  · rename_i hquote hslash _ _ _ _ _ hcontrol
    exact parseUnits_plain rest hquote hslash hcontrol

theorem parseUnits_escaped (s : Text) :
    parseUnits (s.flatMap escapeChar ++ '"' :: rest) = some (s.map Char.toNat, rest) := by
  induction s with
  | nil =>
      rw [parseUnits.eq_def]
      rfl
  | cons c s ih =>
      calc
        parseUnits ((c :: s).flatMap escapeChar ++ '"' :: rest)
            = parseUnits (escapeChar c ++ (s.flatMap escapeChar ++ '"' :: rest)) := by simp
        _ = (parseUnits (s.flatMap escapeChar ++ '"' :: rest)).map (pushUnit c.toNat) :=
            parseUnits_escapeChar _ c
        _ = some ((c :: s).map Char.toNat, rest) := by rw [ih]; rfl

theorem parseString_quote (s : Text) :
    parseString (s.flatMap escapeChar ++ '"' :: rest) = some (s, rest) := by
  simp [parseString, parseUnits_escaped, unitsText_map_toNat]

/-- A printed string is over at its closing quote. -/
theorem quote_append_inj {s t rest rest' : Text} (h : quote s ++ rest = quote t ++ rest') :
    s = t ∧ rest = rest' := by
  have hread : ∀ u more : Text, parseString ((quote u ++ more).drop 1) = some (u, more) := by
    intro u more
    have hstring := parseString_quote more u
    simpa [quote] using hstring
  have hequal : some (s, rest) = some (t, rest') := by
    rw [← hread s rest, ← hread t rest', h]
  exact Prod.mk.inj (Option.some.inj hequal)

end Escapes

/-! An object of strings. -/

section Objects

/-- Its fields as they are printed, and as they are read. -/
def printed (fields : List (Text × Text)) : List (Text × Scalar) :=
  fields.map fun field => (field.1, .str field.2)

def read (fields : List (Text × Text)) : List (Text × Json) :=
  fields.map fun field => (field.1, .str field.2)

theorem skipSpace_cons {c : Char} {s : Text} (h : [' ', '\t', '\n', '\r'].contains c = false) :
    skipSpace (c :: s) = c :: s := by
  simp only [skipSpace, List.dropWhile_cons, h]
  rfl

theorem parseValue_quote (fuel : Nat) (s rest : Text) :
    parseValue (fuel + 1) (quote s ++ rest) = some (.str s, rest) := by
  have hstring : parseString (s.flatMap escapeChar ++ '"' :: rest) = some (s, rest) :=
    parseString_quote rest s
  simp [quote, parseValue, hstring]

/-- One field is read up to what follows its value. -/
theorem parseFields_field (fuel : Nat) (field : Text × Text) (rest : Text) :
    parseFields (fuel + 2) (fieldText (field.1, .str field.2) ++ rest) =
      match skipSpace rest with
      | ',' :: more =>
          (parseFields (fuel + 1) (skipSpace more)).map fun read =>
            ((field.1, .str field.2) :: read.1, read.2)
      | '}' :: more => some ([(field.1, .str field.2)], more)
      | _ => none := by
  have htext : fieldText (field.1, .str field.2) ++ rest =
      '"' :: (field.1.flatMap escapeChar ++ '"' :: ':' :: (quote field.2 ++ rest)) := by
    simp [fieldText, quote, scalarText]
  have hkey : parseString (field.1.flatMap escapeChar ++ '"' :: ':' :: (quote field.2 ++ rest)) =
      some (field.1, ':' :: (quote field.2 ++ rest)) :=
    parseString_quote _ field.1
  have hcolon : skipSpace (':' :: (quote field.2 ++ rest)) = ':' :: (quote field.2 ++ rest) :=
    skipSpace_cons rfl
  have hspace : skipSpace (quote field.2 ++ rest) = quote field.2 ++ rest := skipSpace_cons rfl
  rw [htext, parseFields]
  simp only [if_true, hkey, hcolon, hspace, parseValue_quote]

/-- Printed fields begin with a quote. -/
theorem exists_printed (field : Text × Text) (fields : List (Text × Text)) :
    ∃ s, List.intercalate [','] ((printed (field :: fields)).map fieldText) = '"' :: s := by
  cases fields with
  | nil =>
      exact ⟨_, by simp [printed, List.intercalate, fieldText, quote]; rfl⟩
  | cons next fields =>
      exact ⟨_, by simp [printed, List.intercalate, fieldText, quote]; rfl⟩

theorem parseFields_printed (field : Text × Text) (fields : List (Text × Text)) (fuel : Nat)
    (hfuel : fields.length ≤ fuel) (rest : Text) :
    parseFields (fuel + 2)
        (List.intercalate [','] ((printed (field :: fields)).map fieldText) ++ '}' :: rest) =
      some (read (field :: fields), rest) := by
  induction fields generalizing field fuel with
  | nil =>
      have hclose : skipSpace ('}' :: rest) = '}' :: rest := skipSpace_cons rfl
      simp [printed, read, List.intercalate, parseFields_field, hclose]
  | cons next fields ih =>
      obtain ⟨fuel, rfl⟩ : ∃ n, fuel = n + 1 := ⟨fuel - 1, by simp at hfuel; omega⟩
      have htail := ih next fuel (by simpa using hfuel)
      generalize hmore : List.intercalate [','] ((printed (next :: fields)).map fieldText) ++
        '}' :: rest = more at htail
      have htext : List.intercalate [','] ((printed (field :: next :: fields)).map fieldText) ++
          '}' :: rest = fieldText (field.1, .str field.2) ++ ',' :: more := by
        simp [← hmore, printed, List.intercalate]
      have hcomma : skipSpace (',' :: more) = ',' :: more := skipSpace_cons rfl
      have hspace : skipSpace more = more := by
        rcases exists_printed next fields with ⟨s, hs⟩
        rw [← hmore, hs]
        exact skipSpace_cons rfl
      rw [htext, parseFields_field, hcomma]
      simp only [hspace, htail, Option.map_some]
      rfl

end Objects

theorem length_le_intercalate (parts : List Text) :
    parts.length ≤ (List.intercalate [','] parts).length + 1 := by
  induction parts with
  | nil =>
      simp
  | cons part parts ih =>
      cases parts with
      | nil => simp
      | cons next parts =>
          have hlen : (List.intercalate [','] (part :: next :: parts)).length =
              part.length + ((List.intercalate [','] (next :: parts)).length + 1) := by
            simp [List.intercalate]
          simp only [List.length_cons] at ih ⊢
          omega

theorem parse_stringify (fields : List (Text × Text)) :
    parse (stringify (printed fields)) = some (.obj (read fields)) := by
  cases fields with
  | nil =>
      rfl
  | cons field fields =>
      rcases exists_printed field fields with ⟨s, hs⟩
      have hlen := length_le_intercalate ((printed (field :: fields)).map fieldText)
      rw [hs] at hlen
      have hread := parseFields_printed field fields (2 * (s.length + 1) + 3)
        (by simp [printed] at hlen; omega) []
      rw [hs] at hread
      have hopen : skipSpace ('{' :: '"' :: (s ++ ['}'])) = '{' :: '"' :: (s ++ ['}']) :=
        skipSpace_cons rfl
      have hquote : skipSpace ('"' :: (s ++ ['}'])) = '"' :: (s ++ ['}']) := skipSpace_cons rfl
      have htext : stringify (printed (field :: fields)) = '{' :: '"' :: (s ++ ['}']) := by
        simp [stringify, hs]
      have hfuel : 2 * ('{' :: '"' :: (s ++ ['}'])).length + 2 =
          2 * (s.length + 1) + 3 + 2 + 1 := by
        simp
        omega
      rw [htext, parse, hopen, hfuel, parseValue]
      simp only [hquote, List.cons_append] at hread ⊢
      simp [hread, skipSpace]

end Json
end Strings
end PaymentRail
