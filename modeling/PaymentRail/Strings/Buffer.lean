import Mathlib.Data.List.TakeWhile
import PaymentRail.Strings.Numeral

/-!
# Buffer — text as UTF-8 bytes and as base64url

A byte is a number below 256.  The file has the two conversions of a buffer that a token for a
query string goes through:

* `utf8` and `utf8Text`, between text and bytes.  Bytes that are no UTF-8 read as the replacement
  character, one for each longest part that could have begun a character;
* `base64url` and `base64Bytes`, between bytes and their text in sextets.  Reading is lenient: it
  takes both alphabets, skips every other character and ends at the padding.

Reading back what was written gives the text again (`utf8Text_utf8`, `base64Bytes_base64url`).
-/

namespace PaymentRail
namespace Strings

/-! ## UTF-8 -/

def utf8Bytes (c : Char) : List Nat :=
  let n := c.toNat
  if n < 0x80 then [n]
  else if n < 0x800 then [0xC0 + n / 0x40, 0x80 + n % 0x40]
  else if n < 0x10000 then [0xE0 + n / 0x1000, 0x80 + n / 0x40 % 0x40, 0x80 + n % 0x40]
  else [0xF0 + n / 0x40000, 0x80 + n / 0x1000 % 0x40, 0x80 + n / 0x40 % 0x40, 0x80 + n % 0x40]

/-- `Buffer.from(text, 'utf8')` -/
def utf8 (text : Text) : List Nat := text.flatMap utf8Bytes

/-- U+FFFD -/
def replacement : Char := Char.ofNat 0xFFFD

/-- How many bytes follow the first byte of a character, and the bounds of the second. -/
def utf8Lead (a : Nat) : Option (Nat × Nat × Nat) :=
  if a < 0x80 then some (0, 0x80, 0xBF)
  else if a < 0xC2 then none
  else if a < 0xE0 then some (1, 0x80, 0xBF)
  else if a = 0xE0 then some (2, 0xA0, 0xBF)
  else if a = 0xED then some (2, 0x80, 0x9F)
  else if a < 0xF0 then some (2, 0x80, 0xBF)
  else if a = 0xF0 then some (3, 0x90, 0xBF)
  else if a < 0xF4 then some (3, 0x80, 0xBF)
  else if a = 0xF4 then some (3, 0x80, 0x8F)
  else none

/-- The bits that follow, `n` bytes of them; else how many bytes were in order. -/
def utf8Tail : Nat → Nat → Nat → Nat → Nat → List Nat → Nat ⊕ Nat
  | 0, _, _, _, bits, _ => Sum.inr bits
  | _ + 1, _, _, k, _, [] => Sum.inl k
  | n + 1, lo, hi, k, bits, b :: rest =>
      if lo ≤ b ∧ b ≤ hi then utf8Tail n 0x80 0xBF (k + 1) (bits * 0x40 + (b - 0x80)) rest
      else Sum.inl k

/-- The bits of the first byte of a character of `n + 1` bytes. -/
def leadBits (n a : Nat) : Nat := if n = 0 then a else a % 2 ^ (6 - n)

/-- The character at the head of the bytes, and how many bytes after the first it takes. -/
def utf8Char (a : Nat) (rest : List Nat) : Char × Nat :=
  match utf8Lead a with
  | none => (replacement, 0)
  | some (n, lo, hi) =>
      match utf8Tail n lo hi 0 (leadBits n a) rest with
      | Sum.inr bits => (Char.ofNat bits, n)
      | Sum.inl k => (replacement, k)

/-- The text from a byte on, after skipping the bytes that belong to the last character. -/
def utf8TextFrom : Nat → List Nat → Text
  | _, [] => []
  | skip + 1, _ :: rest => utf8TextFrom skip rest
  | 0, a :: rest => (utf8Char a rest).1 :: utf8TextFrom (utf8Char a rest).2 rest

/-- `buffer.toString('utf8')` -/
def utf8Text (bytes : List Nat) : Text := utf8TextFrom 0 bytes

section Utf8

variable {n : Nat} (rest : List Nat)

theorem utf8Char_one (h : n < 0x80) : utf8Char n rest = (Char.ofNat n, 0) := by
  have hlead : utf8Lead n = some (0, 0x80, 0xBF) := by simp [utf8Lead, h]
  simp [utf8Char, hlead, utf8Tail, leadBits]

theorem utf8Char_two (hlo : 0x80 ≤ n) (hhi : n < 0x800) :
    utf8Char (0xC0 + n / 0x40) ((0x80 + n % 0x40) :: rest) = (Char.ofNat n, 1) := by
  have hlead : utf8Lead (0xC0 + n / 0x40) = some (1, 0x80, 0xBF) := by
    rw [utf8Lead, if_neg (by omega), if_neg (by omega), if_pos (by omega)]
  have hlast : 0x80 + n % 0x40 ≤ 0xBF := by omega
  have hbits : leadBits 1 (0xC0 + n / 0x40) * 0x40 + n % 0x40 = n := by
    have hfirst : leadBits 1 (0xC0 + n / 0x40) = (0xC0 + n / 0x40) % 0x20 := rfl
    omega
  simp [utf8Char, hlead, utf8Tail, hlast, hbits]

/-- The bounds of the second byte leave out the surrogates and what fits in two bytes. -/
theorem utf8Lead_three (hlo : 0x800 ≤ n) (hhi : n < 0x10000)
    (hvalid : n < 0xD800 ∨ 0xDFFF < n) :
    ∃ lo hi, utf8Lead (0xE0 + n / 0x1000) = some (2, lo, hi) ∧
      lo ≤ 0x80 + n / 0x40 % 0x40 ∧ 0x80 + n / 0x40 % 0x40 ≤ hi := by
  rw [utf8Lead, if_neg (by omega), if_neg (by omega), if_neg (by omega)]
  split
  · exact ⟨_, _, rfl, by omega, by omega⟩
  · split
    · exact ⟨_, _, rfl, by omega, by omega⟩
    · rw [if_pos (by omega)]
      exact ⟨_, _, rfl, by omega, by omega⟩

theorem utf8Char_three (hlo : 0x800 ≤ n) (hhi : n < 0x10000)
    (hvalid : n < 0xD800 ∨ 0xDFFF < n) :
    utf8Char (0xE0 + n / 0x1000) ((0x80 + n / 0x40 % 0x40) :: (0x80 + n % 0x40) :: rest) =
      (Char.ofNat n, 2) := by
  rcases utf8Lead_three hlo hhi hvalid with ⟨lo, hi, hlead, hle, hge⟩
  have hlast : 0x80 + n % 0x40 ≤ 0xBF := by omega
  have hbits : (leadBits 2 (0xE0 + n / 0x1000) * 0x40 + n / 0x40 % 0x40) * 0x40 + n % 0x40 = n := by
    have hfirst : leadBits 2 (0xE0 + n / 0x1000) = (0xE0 + n / 0x1000) % 0x10 := rfl
    omega
  simp [utf8Char, hlead, utf8Tail, hle, hge, hlast, hbits]

theorem utf8Lead_four (hlo : 0x10000 ≤ n) (hhi : n < 0x110000) :
    ∃ lo hi, utf8Lead (0xF0 + n / 0x40000) = some (3, lo, hi) ∧
      lo ≤ 0x80 + n / 0x1000 % 0x40 ∧ 0x80 + n / 0x1000 % 0x40 ≤ hi := by
  rw [utf8Lead, if_neg (by omega), if_neg (by omega), if_neg (by omega), if_neg (by omega),
    if_neg (by omega), if_neg (by omega)]
  split
  · exact ⟨_, _, rfl, by omega, by omega⟩
  · split
    · exact ⟨_, _, rfl, by omega, by omega⟩
    · rw [if_pos (by omega)]
      exact ⟨_, _, rfl, by omega, by omega⟩

theorem utf8Char_four (hlo : 0x10000 ≤ n) (hhi : n < 0x110000) :
    utf8Char (0xF0 + n / 0x40000)
        ((0x80 + n / 0x1000 % 0x40) :: (0x80 + n / 0x40 % 0x40) :: (0x80 + n % 0x40) :: rest) =
      (Char.ofNat n, 3) := by
  rcases utf8Lead_four hlo hhi with ⟨lo, hi, hlead, hle, hge⟩
  have hthird : 0x80 + n / 0x40 % 0x40 ≤ 0xBF := by omega
  have hlast : 0x80 + n % 0x40 ≤ 0xBF := by omega
  have hbits : ((leadBits 3 (0xF0 + n / 0x40000) * 0x40 + n / 0x1000 % 0x40) * 0x40 +
      n / 0x40 % 0x40) * 0x40 + n % 0x40 = n := by
    have hfirst : leadBits 3 (0xF0 + n / 0x40000) = (0xF0 + n / 0x40000) % 0x8 := rfl
    omega
  simp [utf8Char, hlead, utf8Tail, hle, hge, hthird, hlast, hbits]

theorem utf8TextFrom_utf8Bytes (c : Char) :
    utf8TextFrom 0 (utf8Bytes c ++ rest) = c :: utf8TextFrom 0 rest := by
  have hvalid : c.toNat < 0xD800 ∨ 0xDFFF < c.toNat ∧ c.toNat < 0x110000 := c.valid
  have hc : Char.ofNat c.toNat = c := Char.ofNat_toNat c
  simp only [utf8Bytes]
  split
  · rename_i hone
    simp [utf8TextFrom, utf8Char_one rest hone, hc]
  split
  · rename_i hone htwo
    simp [utf8TextFrom, utf8Char_two rest (Nat.le_of_not_lt hone) htwo, hc]
  split
  · rename_i hone htwo hthree
    simp [utf8TextFrom, utf8Char_three rest (Nat.le_of_not_lt htwo) hthree (by omega), hc]
  · rename_i hone htwo hthree
    simp [utf8TextFrom, utf8Char_four rest (Nat.le_of_not_lt hthree) (by omega), hc]

end Utf8

theorem utf8Text_utf8 (text : Text) : utf8Text (utf8 text) = text := by
  induction text with
  | nil =>
      rfl
  | cons c text ih =>
      calc
        utf8Text (utf8 (c :: text)) = c :: utf8Text (utf8 text) :=
          utf8TextFrom_utf8Bytes (utf8 text) c
        _ = c :: text := by rw [ih]

theorem lt_of_mem_utf8 {text : Text} {b : Nat} (h : b ∈ utf8 text) : b < 256 := by
  rcases List.mem_flatMap.1 h with ⟨c, _, hb⟩
  have hvalid : c.toNat < 0xD800 ∨ 0xDFFF < c.toNat ∧ c.toNat < 0x110000 := c.valid
  simp only [utf8Bytes] at hb
  split at hb
  · simp only [List.mem_singleton] at hb
    omega
  split at hb
  · simp only [List.mem_cons, List.not_mem_nil, or_false] at hb
    omega
  split at hb
  · simp only [List.mem_cons, List.not_mem_nil, or_false] at hb
    omega
  · simp only [List.mem_cons, List.not_mem_nil, or_false] at hb
    omega

/-! ## Base64 -/

/-- The alphabet `A-Za-z0-9-_`. -/
def sextetChar (n : Nat) : Char :=
  if n < 26 then Char.ofNat (n + 65)
  else if n < 52 then Char.ofNat (n - 26 + 97)
  else if n < 62 then Char.ofNat (n - 52 + 48)
  else if n = 62 then '-'
  else '_'

/-- The value of a character in either alphabet. -/
def charSextet (c : Char) : Option Nat :=
  if 'A' ≤ c ∧ c ≤ 'Z' then some (c.toNat - 65)
  else if 'a' ≤ c ∧ c ≤ 'z' then some (c.toNat - 97 + 26)
  else if '0' ≤ c ∧ c ≤ '9' then some (c.toNat - 48 + 52)
  else if c = '-' ∨ c = '+' then some 62
  else if c = '_' ∨ c = '/' then some 63
  else none

/-- Three bytes are four sextets; the bits missing at the end are zeros. -/
def sextets : List Nat → List Nat
  | a :: b :: c :: rest =>
      [a / 4, a % 4 * 16 + b / 16, b % 16 * 4 + c / 64, c % 64] ++ sextets rest
  | [a, b] => [a / 4, a % 4 * 16 + b / 16, b % 16 * 4]
  | [a] => [a / 4, a % 4 * 16]
  | [] => []

/-- The whole bytes of a list of sextets. -/
def sextetBytes : List Nat → List Nat
  | w :: x :: y :: z :: rest =>
      [w * 4 + x / 16, x % 16 * 16 + y / 4, y % 4 * 64 + z] ++ sextetBytes rest
  | [w, x, y] => [w * 4 + x / 16, x % 16 * 16 + y / 4]
  | [w, x] => [w * 4 + x / 16]
  | _ => []

/-- `buffer.toString('base64url')` -/
def base64url (bytes : List Nat) : Text := (sextets bytes).map sextetChar

/-- `Buffer.from(text, 'base64url')` -/
def base64Bytes (text : Text) : List Nat :=
  sextetBytes ((text.takeWhile fun c => c ≠ '=').filterMap charSextet)

theorem charSextet_sextetChar {n : Nat} (h : n < 64) : charSextet (sextetChar n) = some n := by
  have hall : ∀ n : Fin 64, charSextet (sextetChar n) = some n.val := by decide
  exact hall ⟨n, h⟩

/-- The alphabet is without the padding. -/
theorem takeWhile_base64url {bytes : List Nat} (hsextets : ∀ n ∈ sextets bytes, n < 64) :
    (base64url bytes).takeWhile (fun c => c ≠ '=') = base64url bytes := by
  refine List.takeWhile_eq_self_iff.2 ?_
  intro c hc
  rcases List.mem_map.1 hc with ⟨n, hn, rfl⟩
  have hsome := charSextet_sextetChar (hsextets n hn)
  have hpad : charSextet '=' = none := rfl
  simp only [ne_eq, decide_not, Bool.not_eq_true', decide_eq_false_iff_not]
  intro hEq
  rw [hEq, hpad] at hsome
  cases hsome

theorem lt_of_mem_sextets {bytes : List Nat} (hbytes : ∀ b ∈ bytes, b < 256) {n : Nat}
    (h : n ∈ sextets bytes) : n < 64 := by
  induction bytes using sextets.induct with
  | case1 a b c rest ih =>
      simp only [List.mem_cons, forall_eq_or_imp] at hbytes
      obtain ⟨ha, hb, hc, hrest⟩ := hbytes
      simp only [sextets, List.cons_append, List.nil_append, List.mem_cons] at h
      rcases h with rfl | rfl | rfl | rfl | hmem
      · omega
      · omega
      · omega
      · omega
      · exact ih hrest hmem
  | case2 a b =>
      simp only [List.mem_cons, List.not_mem_nil, or_false, forall_eq_or_imp, forall_eq] at hbytes
      simp only [sextets, List.mem_cons, List.not_mem_nil, or_false] at h
      omega
  | case3 a =>
      simp only [List.mem_cons, List.not_mem_nil, or_false, forall_eq] at hbytes
      simp only [sextets, List.mem_cons, List.not_mem_nil, or_false] at h
      omega
  | case4 =>
      cases h

theorem sextetBytes_sextets {bytes : List Nat} (hbytes : ∀ b ∈ bytes, b < 256) :
    sextetBytes (sextets bytes) = bytes := by
  induction bytes using sextets.induct with
  | case1 a b c rest ih =>
      simp only [List.mem_cons, forall_eq_or_imp] at hbytes
      obtain ⟨ha, hb, hc, hrest⟩ := hbytes
      simp only [sextets, sextetBytes, List.cons_append, List.nil_append, ih hrest, List.cons.injEq,
        and_true]
      omega
  | case2 a b =>
      simp only [List.mem_cons, List.not_mem_nil, or_false, forall_eq_or_imp, forall_eq] at hbytes
      simp only [sextets, sextetBytes, List.cons.injEq, and_true]
      omega
  | case3 a =>
      simp only [List.mem_cons, List.not_mem_nil, or_false, forall_eq] at hbytes
      simp only [sextets, sextetBytes, List.cons.injEq, and_true]
      omega
  | case4 =>
      rfl

theorem base64Bytes_base64url {bytes : List Nat} (hbytes : ∀ b ∈ bytes, b < 256) :
    base64Bytes (base64url bytes) = bytes := by
  have hlt : ∀ n ∈ sextets bytes, n < 64 := fun n => lt_of_mem_sextets hbytes
  have hread : (base64url bytes).filterMap charSextet = sextets bytes := by
    have hsome : ∀ n ∈ sextets bytes, charSextet (sextetChar n) = some n :=
      fun n hn => charSextet_sextetChar (hlt n hn)
    calc
      (base64url bytes).filterMap charSextet
          = (sextets bytes).filterMap (fun n => charSextet (sextetChar n)) := by
            rw [base64url, List.filterMap_map]
            rfl
      _ = (sextets bytes).filterMap some := List.filterMap_congr hsome
      _ = sextets bytes := List.filterMap_some
  rw [base64Bytes, takeWhile_base64url hlt, hread, sextetBytes_sextets hbytes]

/-- A text survives both conversions. -/
theorem utf8Text_base64Bytes (text : Text) :
    utf8Text (base64Bytes (base64url (utf8 text))) = text := by
  rw [base64Bytes_base64url fun b => lt_of_mem_utf8, utf8Text_utf8]

theorem base64url_ne_nil {text : Text} (h : text ≠ []) : base64url (utf8 text) ≠ [] := by
  intro hnil
  have hempty := utf8Text_base64Bytes text
  rw [hnil] at hempty
  have hread : utf8Text (base64Bytes []) = [] := rfl
  exact h (hempty.symm.trans hread)

end Strings
end PaymentRail
