import Mathlib.Algebra.Order.Ring.Nat
import Mathlib.Data.Nat.Digits.Defs
import Mathlib.Data.List.Basic
import Mathlib.Tactic.IntervalCases
import Mathlib.Tactic.Ring

/-!
# Numeral — numbers as text

Strings are lists of characters.  The file is about positional notation in a base up to 16, as
`toString(radix)`, `parseInt` and `BigInt` use it:

* printing is `Nat.toDigits` of the standard library;
* `value b s` reads a text back;
* `padStart` fills up with a character on the left.

Printing and reading are inverse, also after padding with zeros, and the length of a printed
number is governed by its size.
-/

namespace PaymentRail
namespace Strings

/-- A string: its characters in order. -/
abbrev Text := List Char

/-! ## Digits -/

def decDigits : List Char := ['0', '1', '2', '3', '4', '5', '6', '7', '8', '9']

/-- The class `[0-9a-fA-F]`. -/
def hexDigits : List Char :=
  ['0', '1', '2', '3', '4', '5', '6', '7', '8', '9', 'a', 'b', 'c', 'd', 'e', 'f',
    'A', 'B', 'C', 'D', 'E', 'F']

def isDecDigit (c : Char) : Bool := decDigits.contains c

def isHexDigit (c : Char) : Bool := hexDigits.contains c

/-- The value of a digit in either letter case. -/
def digitVal (c : Char) : Nat :=
  -- `0` to `9`, then `A` to `F`, then `a` to `f`
  if c.toNat < 58 then c.toNat - 48
  else if c.toNat < 71 then c.toNat - 55
  else c.toNat - 87

theorem isHexDigit_iff {c : Char} : isHexDigit c = true ↔ c ∈ hexDigits := by
  simp [isHexDigit]

theorem isDecDigit_iff {c : Char} : isDecDigit c = true ↔ c ∈ decDigits := by
  simp [isDecDigit]

theorem digitVal_digitChar {n : Nat} (h : n < 16) : digitVal n.digitChar = n := by
  interval_cases n <;> rfl

theorem digitChar_mem_hexDigits {n : Nat} (h : n < 16) : n.digitChar ∈ hexDigits := by
  interval_cases n <;> decide

theorem digitChar_mem_decDigits {n : Nat} (h : n < 10) : n.digitChar ∈ decDigits := by
  interval_cases n <;> decide

theorem toLower_digitChar {n : Nat} (h : n < 16) : n.digitChar.toLower = n.digitChar := by
  interval_cases n <;> decide

/-- What holds of each of the 22 hex digits holds of any member of the class. -/
theorem forall_mem_hexDigits {P : Char → Prop} (h : hexDigits.Forall P) {c : Char}
    (hc : c ∈ hexDigits) : P c :=
  List.forall_iff_forall_mem.1 h c hc

theorem forall_mem_decDigits {P : Char → Prop} (h : decDigits.Forall P) {c : Char}
    (hc : c ∈ decDigits) : P c :=
  List.forall_iff_forall_mem.1 h c hc

theorem toLower_mem_hexDigits {c : Char} (h : c ∈ hexDigits) : c.toLower ∈ hexDigits := by
  refine forall_mem_hexDigits (P := fun c => c.toLower ∈ hexDigits) ?_ h
  simp only [hexDigits, List.Forall]
  decide

theorem toLower_toLower_hexDigits {c : Char} (h : c ∈ hexDigits) :
    c.toLower.toLower = c.toLower := by
  refine forall_mem_hexDigits (P := fun c => c.toLower.toLower = c.toLower) ?_ h
  simp only [hexDigits, List.Forall]
  decide

/-! ## Reading -/

/-- The number a text of digits stands for, most significant digit first. -/
def value (b : Nat) (s : Text) : Nat :=
  s.foldl (fun n c => n * b + digitVal c) 0

theorem foldl_digits (b : Nat) (s : Text) (n : Nat) :
    s.foldl (fun n c => n * b + digitVal c) n = n * b ^ s.length + value b s := by
  induction s generalizing n with
  | nil =>
      simp [value]
  | cons c s ih =>
      have hfirst : value b (c :: s) = digitVal c * b ^ s.length + value b s := by
        simpa [value] using ih (digitVal c)
      simp only [List.foldl_cons, ih, hfirst, List.length_cons, Nat.pow_succ]
      ring

@[simp] theorem value_nil (b : Nat) : value b [] = 0 := rfl

theorem value_cons (b : Nat) (c : Char) (s : Text) :
    value b (c :: s) = digitVal c * b ^ s.length + value b s := by
  simpa [value] using foldl_digits b s (digitVal c)

theorem value_append (b : Nat) (s t : Text) :
    value b (s ++ t) = value b s * b ^ t.length + value b t := by
  simpa [value] using foldl_digits b t (value b s)

@[simp] theorem value_zeros (b n : Nat) (s : Text) :
    value b (List.replicate n '0' ++ s) = value b s := by
  induction n with
  | zero =>
      simp
  | succ n ih =>
      have hzero : digitVal '0' = 0 := rfl
      simpa [List.replicate_succ, value_cons, hzero] using ih

/-- A text of digits stands for a number that fits into its places. -/
theorem value_lt_pow {b : Nat} {s : Text} (h : ∀ c ∈ s, digitVal c < b) : value b s < b ^ s.length := by
  induction s with
  | nil => exact Nat.one_pos
  | cons c s ih =>
      have hrest := ih (fun d hd => h d (List.mem_cons_of_mem c hd))
      have hmul : (digitVal c + 1) * b ^ s.length ≤ b * b ^ s.length :=
        Nat.mul_le_mul_right _ (h c List.mem_cons_self)
      rw [Nat.add_mul, Nat.one_mul] at hmul
      rw [value_cons, List.length_cons, Nat.pow_succ, Nat.mul_comm _ b]
      omega

/-! ## Printing -/

/-- Reading what was printed gives the number back. -/
theorem value_toDigits {b : Nat} (hb : 1 < b) (hb16 : b ≤ 16) (n : Nat) :
    value b (Nat.toDigits b n) = n := by
  induction n using Nat.strong_induction_on with
  | _ n ih =>
      by_cases hn : n < b
      · rw [Nat.toDigits_of_lt_base hn, value_cons, digitVal_digitChar (Nat.lt_of_lt_of_le hn hb16)]
        simp
      · have hle : b ≤ n := Nat.le_of_not_lt hn
        have hpos : 0 < n := by omega
        have hdigit : n % b < b := Nat.mod_lt _ (by omega)
        -- printing appends the last digit to the printed quotient
        rw [Nat.toDigits_of_base_le hb hle, value_append, ih (n / b) (Nat.div_lt_self hpos hb),
          value_cons, digitVal_digitChar (Nat.lt_of_lt_of_le hdigit hb16)]
        simpa [Nat.mul_comm] using Nat.div_add_mod n b

/-- Every character of a printed number is the character of a digit. -/
theorem exists_digit_of_mem_toDigits {b : Nat} (hb : 1 < b) {n : Nat} {c : Char}
    (h : c ∈ Nat.toDigits b n) : ∃ d, d < b ∧ c = d.digitChar := by
  induction n using Nat.strong_induction_on with
  | _ n ih =>
      by_cases hn : n < b
      · rw [Nat.toDigits_of_lt_base hn] at h
        exact ⟨n, hn, by simpa using h⟩
      · have hle : b ≤ n := Nat.le_of_not_lt hn
        have hpos : 0 < n := by omega
        rw [Nat.toDigits_of_base_le hb hle] at h
        rcases List.mem_append.1 h with hfront | hlast
        · exact ih (n / b) (Nat.div_lt_self hpos hb) hfront
        · exact ⟨n % b, Nat.mod_lt _ (by omega), by simpa using hlast⟩

theorem mem_hexDigits_of_mem_toDigits {n : Nat} {c : Char} (h : c ∈ Nat.toDigits 16 n) :
    c ∈ hexDigits := by
  rcases exists_digit_of_mem_toDigits (by decide) h with ⟨d, hd, rfl⟩
  exact digitChar_mem_hexDigits hd

theorem mem_decDigits_of_mem_toDigits {n : Nat} {c : Char} (h : c ∈ Nat.toDigits 10 n) :
    c ∈ decDigits := by
  rcases exists_digit_of_mem_toDigits (by decide) h with ⟨d, hd, rfl⟩
  exact digitChar_mem_decDigits hd

theorem not_mem_toDigits {c : Char} (hc : isDecDigit c = false) (n : Nat) :
    c ∉ Nat.toDigits 10 n := by
  intro hmem
  have hdigit := isDecDigit_iff.2 (mem_decDigits_of_mem_toDigits hmem)
  rw [hc] at hdigit
  exact Bool.false_ne_true hdigit

theorem toDigits_injective {m n : Nat} (h : Nat.toDigits 10 m = Nat.toDigits 10 n) : m = n := by
  have hvalue := congrArg (value 10) h
  rwa [value_toDigits (by decide) (by decide), value_toDigits (by decide) (by decide)] at hvalue

/-- Printed numbers are in lower case. -/
theorem toLower_of_mem_toDigits {n : Nat} {c : Char} (h : c ∈ Nat.toDigits 16 n) :
    c.toLower = c := by
  rcases exists_digit_of_mem_toDigits (by decide) h with ⟨d, hd, rfl⟩
  exact toLower_digitChar hd

/-! ## Padding -/

/-- `s.padStart(width, fill)`. -/
def padStart (width : Nat) (fill : Char) (s : Text) : Text :=
  List.replicate (width - s.length) fill ++ s

theorem length_padStart {width : Nat} {fill : Char} {s : Text} (h : s.length ≤ width) :
    (padStart width fill s).length = width := by
  simp [padStart]
  omega

@[simp] theorem value_padStart (b width : Nat) (s : Text) :
    value b (padStart width '0' s) = value b s := by
  simp [padStart]

theorem mem_padStart {width : Nat} {fill c : Char} {s : Text} (h : c ∈ padStart width fill s) :
    c = fill ∨ c ∈ s := by
  rcases List.mem_append.1 h with hfill | hs
  · exact Or.inl (List.eq_of_mem_replicate hfill)
  · exact Or.inr hs

/-- `s.padEnd(width, fill)`. -/
def padEnd (width : Nat) (fill : Char) (s : Text) : Text :=
  s ++ List.replicate (width - s.length) fill

theorem padEnd_eq_self {width : Nat} {fill : Char} {s : Text} (h : width ≤ s.length) :
    padEnd width fill s = s := by
  have hzero : width - s.length = 0 := by omega
  simp [padEnd, hzero]

/-- A number below `b ^ width` fills exactly `width` places. -/
theorem length_padStart_toDigits {b width n : Nat} (hb : 1 < b) (hwidth : 0 < width)
    (h : n < b ^ width) : (padStart width '0' (Nat.toDigits b n)).length = width :=
  length_padStart ((Nat.length_toDigits_le_iff hb hwidth).2 h)

/-! ## Letter case and hex strings -/

/-- `s.toLowerCase()` on ASCII text. -/
def toLowerCase (s : Text) : Text := s.map Char.toLower

@[simp] theorem length_toLowerCase (s : Text) : (toLowerCase s).length = s.length := by
  simp [toLowerCase]

theorem toLowerCase_eq_self {s : Text} (h : ∀ c ∈ s, c.toLower = c) : toLowerCase s = s := by
  have hid : s.map Char.toLower = s.map id := List.map_congr_left h
  simpa [toLowerCase] using hid

/-- `/^0x[0-9a-fA-F]{n}$/.test(s)` -/
def hexPattern (n : Nat) : Text → Bool
  | '0' :: 'x' :: rest => rest.length == n && rest.all isHexDigit
  | _ => false

theorem hexPattern_iff {n : Nat} {s : Text} :
    hexPattern n s = true ↔
      ∃ rest, s = '0' :: 'x' :: rest ∧ rest.length = n ∧ ∀ c ∈ rest, c ∈ hexDigits := by
  constructor
  · intro h
    unfold hexPattern at h
    split at h
    · rename_i rest
      simp only [Bool.and_eq_true, beq_iff_eq, List.all_eq_true] at h
      exact ⟨rest, rfl, h.1, fun c hc => isHexDigit_iff.1 (h.2 c hc)⟩
    · cases h
  · rintro ⟨rest, rfl, hlen, hmem⟩
    simp only [hexPattern, Bool.and_eq_true, beq_iff_eq, List.all_eq_true]
    exact ⟨hlen, fun c hc => isHexDigit_iff.2 (hmem c hc)⟩

theorem hexPattern_toLowerCase {n : Nat} {s : Text} (h : hexPattern n s = true) :
    hexPattern n (toLowerCase s) = true := by
  rcases hexPattern_iff.1 h with ⟨rest, rfl, hlen, hmem⟩
  refine hexPattern_iff.2 ⟨toLowerCase rest, rfl, by simpa using hlen, ?_⟩
  intro c hc
  rcases List.mem_map.1 hc with ⟨d, hd, rfl⟩
  exact toLower_mem_hexDigits (hmem d hd)

/-- Lower-casing a hex string twice is lower-casing it once. -/
theorem toLowerCase_toLowerCase {n : Nat} {s : Text} (h : hexPattern n s = true) :
    toLowerCase (toLowerCase s) = toLowerCase s := by
  rcases hexPattern_iff.1 h with ⟨rest, rfl, _, hmem⟩
  -- `0`, `x`, or one of the digits
  refine toLowerCase_eq_self ?_
  intro c hc
  rcases List.mem_map.1 hc with ⟨d, hd, rfl⟩
  rcases List.mem_cons.1 hd with rfl | hd
  · rfl
  · rcases List.mem_cons.1 hd with rfl | hd
    · rfl
    · exact toLower_toLower_hexDigits (hmem d hd)

/-! ## Words -/

/-- Literals of 32 bytes. -/
instance neZero_word : NeZero (2 ^ 256) := ⟨Nat.two_pow_pos 256 |>.ne'⟩

/-- Literals of 20 bytes. -/
instance neZero_address : NeZero (2 ^ 160) := ⟨Nat.two_pow_pos 160 |>.ne'⟩

/-- A number below `2 ^ 256` as `0x` and 64 lower-case hex digits. -/
def hexWord (n : Nat) : Text := '0' :: 'x' :: padStart 64 '0' (Nat.toDigits 16 n)

theorem hexPattern_hexWord {n : Nat} (h : n < 2 ^ 256) : hexPattern 64 (hexWord n) = true := by
  have hlt : n < 16 ^ 64 := by
    have hpow : (16 : Nat) ^ 64 = 2 ^ 256 := by norm_num
    omega
  refine hexPattern_iff.2 ⟨_, rfl, length_padStart_toDigits (by decide) (by decide) hlt, ?_⟩
  intro c hc
  rcases mem_padStart hc with rfl | hc
  · decide
  · exact mem_hexDigits_of_mem_toDigits hc

theorem toLowerCase_hexWord (n : Nat) : toLowerCase (hexWord n) = hexWord n := by
  refine toLowerCase_eq_self ?_
  intro c hc
  rcases List.mem_cons.1 hc with rfl | hc
  · rfl
  · rcases List.mem_cons.1 hc with rfl | hc
    · rfl
    · rcases mem_padStart hc with rfl | hc
      · rfl
      · exact toLower_of_mem_toDigits hc

end Strings
end PaymentRail
