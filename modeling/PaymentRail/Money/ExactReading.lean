import Mathlib.Algebra.Order.Field.Rat
import Mathlib.Tactic.FieldSimp
import PaymentRail.Money.Amount

/-!
# ExactReading — an amount is read as the number its text denotes

`Denotes text q` says what the texts of a decimal grammar with an optional exponent mean, as rational
numbers.  The exponent of a text is worked off by moving the point between its digits, and that does
not change what is denoted (`shift_rat`).  So `Amount.from` accepts a text exactly if it denotes a
whole number of wei, and reads that number.
-/

namespace PaymentRail
namespace Money

open Machine Strings

/-! ## The grammar -/

/-- A text of the form `-?digits(.digits)?`. -/
structure Decimal where
  sign : Bool
  whole : Text
  fraction : Text
  wholeDigits : Digits whole
  fractionDigits : ∀ c ∈ fraction, isDecDigit c = true

namespace Decimal

def text (d : Decimal) : Text := minus d.sign ++ (d.whole ++ dotted d.fraction)

/-- The number without its sign: all the digits, with the point put back. -/
def magnitude (d : Decimal) : ℚ := (value 10 (d.whole ++ d.fraction) : ℚ) / 10 ^ d.fraction.length

def rat (d : Decimal) : ℚ := if d.sign then -d.magnitude else d.magnitude

end Decimal

/-- A text of the form `[+-]?digits`. -/
structure Exponent where
  sign : Option Bool
  digits : Text
  wellFormed : Digits digits

namespace Exponent

def text (e : Exponent) : Text :=
  match e.sign with
  | none => e.digits
  | some false => '+' :: e.digits
  | some true => '-' :: e.digits

def toInt (e : Exponent) : Int :=
  if e.sign = some true then -(value 10 e.digits : Int) else value 10 e.digits

end Exponent

/-- What a text denotes; exponents beyond 60 denote nothing. -/
inductive Denotes : Text → ℚ → Prop where
  | decimal (d : Decimal) : Denotes d.text d.rat
  | scientific (d : Decimal) {mark : Char} (e : Exponent) :
      mark = 'e' ∨ mark = 'E' → e.toInt.natAbs ≤ 60 →
        Denotes (d.text ++ mark :: e.text) (d.rat * 10 ^ e.toInt)

/-! ## The patterns are the grammar -/

theorem signGroup_text (text : Text) :
    text = minus (signGroup text).1 ++ (signGroup text).2 := by
  unfold signGroup
  split
  · rfl
  · rfl

theorem digits_takeWhile {s : Text} (h : s.takeWhile isDecDigit ≠ []) :
    Digits (s.takeWhile isDecDigit) :=
  ⟨h, fun _ hc => List.mem_takeWhile_imp hc⟩

theorem digits_singleton {c : Char} (h : isDecDigit c = true) : Digits [c] := by
  refine ⟨List.cons_ne_nil _ _, ?_⟩
  intro d hd
  rw [List.mem_singleton.1 hd]
  exact h

theorem decimal_of_decimalPattern {text : Text} {sign : Bool} {whole fraction : Text}
    (h : decimalPattern text = some (sign, whole, fraction)) :
    ∃ d : Decimal, text = d.text ∧ d.sign = sign ∧ d.whole = whole ∧ d.fraction = fraction := by
  have htext := signGroup_text text
  simp only [decimalPattern] at h
  split at h
  · cases h
  · rename_i hwhole
    have hsplit := List.takeWhile_append_dropWhile (p := isDecDigit) (l := (signGroup text).2)
    split at h
    -- digits only, or digits on both sides of a point
    · rename_i hdrop
      cases h
      refine ⟨⟨_, _, [], digits_takeWhile hwhole, by simp⟩, ?_, rfl, rfl, rfl⟩
      rw [hdrop] at hsplit
      simpa [Decimal.text, dotted, hsplit] using htext
    · rename_i hdrop
      split at h
      · rename_i hafter
        cases h
        refine ⟨⟨_, _, _, digits_takeWhile hwhole, List.all_eq_true.1 hafter.2⟩, ?_, rfl, rfl, rfl⟩
        rw [hdrop] at hsplit
        simpa [Decimal.text, dotted, hafter.1, hsplit] using htext
      · cases h
    · cases h

theorem Decimal.decimalPattern_text (d : Decimal) :
    decimalPattern d.text = some (d.sign, d.whole, d.fraction) :=
  decimalPattern_eq d.wholeDigits d.fractionDigits

theorem Digits.head_ne {s : Text} (h : Digits s) {c : Char} (hc : isDecDigit c = false)
    (rest : Text) : s ≠ c :: rest := by
  rintro rfl
  rw [h.digits c List.mem_cons_self] at hc
  cases hc

theorem Exponent.exponentGroup_text (e : Exponent) : exponentGroup e.text = some e.toInt := by
  have hall := e.wellFormed.all
  have hne := e.wellFormed.ne_nil
  unfold Exponent.text Exponent.toInt
  cases hsign : e.sign with
  | none =>
      simp only [exponentGroup]
      split
      · rename_i rest heq
        exact absurd heq (e.wellFormed.head_ne (by decide) rest)
      · rename_i rest heq
        exact absurd heq (e.wellFormed.head_ne (by decide) rest)
      · simp [hall, hne]
  | some minus =>
      cases minus with
      | false => simp [exponentGroup, hall, hne]
      | true => simp [exponentGroup, hall, hne]

theorem exponent_of_exponentGroup {text : Text} {n : Int} (h : exponentGroup text = some n) :
    ∃ e : Exponent, text = e.text ∧ e.toInt = n := by
  have hdigits : ∀ {s : Text}, s ≠ [] ∧ s.all isDecDigit = true → Digits s := fun hs =>
    ⟨hs.1, List.all_eq_true.1 hs.2⟩
  simp only [exponentGroup] at h
  split at h
  · split at h
    · rename_i digits hs
      cases h
      exact ⟨⟨some true, digits, hdigits hs⟩, rfl, rfl⟩
    · cases h
  · split at h
    · rename_i digits hs
      cases h
      exact ⟨⟨some false, digits, hdigits hs⟩, rfl, rfl⟩
    · cases h
  · split at h
    · rename_i hs
      cases h
      exact ⟨⟨none, _, hdigits hs⟩, rfl, rfl⟩
    · cases h

theorem exponentTail_mark {mark : Char} (h : mark = 'e' ∨ mark = 'E') (text : Text) :
    exponentTail (mark :: text) = exponentGroup text := by
  rcases h with rfl | rfl
  · rfl
  · rfl

theorem exponent_of_exponentTail {text : Text} {n : Int} (h : exponentTail text = some n) :
    ∃ (mark : Char) (e : Exponent), (mark = 'e' ∨ mark = 'E') ∧ text = mark :: e.text ∧
      e.toInt = n := by
  unfold exponentTail at h
  split at h
  · rcases exponent_of_exponentGroup h with ⟨e, rfl, hn⟩
    exact ⟨'e', e, Or.inl rfl, rfl, hn⟩
  · rcases exponent_of_exponentGroup h with ⟨e, rfl, hn⟩
    exact ⟨'E', e, Or.inr rfl, rfl, hn⟩
  · cases h

theorem Decimal.exponentPattern_text (d : Decimal) {mark : Char} (e : Exponent)
    (hmark : mark = 'e' ∨ mark = 'E') :
    exponentPattern (d.text ++ mark :: e.text) =
      some (d.sign, d.whole, d.fraction, e.toInt) := by
  -- the run of digits before the exponent ends at the mark
  have hstop : ∀ c ∈ (mark :: e.text).head?, isDecDigit c = false := by
    intro c hc
    obtain rfl : mark = c := by simpa using hc
    rcases hmark with rfl | rfl
    · decide
    · decide
  have htail : exponentTail (mark :: e.text) = some e.toInt := by
    rw [exponentTail_mark hmark, e.exponentGroup_text]
  have hgroup : signGroup (d.text ++ mark :: e.text) =
      (d.sign, d.whole ++ (dotted d.fraction ++ mark :: e.text)) := by
    rw [Decimal.text, List.append_assoc, List.append_assoc]
    exact signGroup_minus d.wholeDigits _
  simp only [exponentPattern, hgroup]
  by_cases hnil : d.fraction = []
  · -- the exponent follows the whole part
    simp only [hnil, dotted, if_true, List.nil_append]
    rcases takeWhile_digits d.wholeDigits.digits hstop with ⟨htake, hdrop⟩
    rw [htake, hdrop, if_neg d.wholeDigits.ne_nil]
    split
    · rename_i after heq
      rcases hmark with rfl | rfl
      · cases heq
      · cases heq
    · rw [htail]
      rfl
  · simp only [hnil, dotted, if_false, List.cons_append]
    -- the whole part ends at the point, and the fraction at the mark
    have hdot : ∀ c ∈ ('.' :: (d.fraction ++ mark :: e.text)).head?, isDecDigit c = false := by
      intro c hc
      obtain rfl : '.' = c := by simpa using hc
      decide
    rcases takeWhile_digits d.wholeDigits.digits hdot with ⟨htake, hdrop⟩
    rcases takeWhile_digits d.fractionDigits hstop with ⟨hfraction, hafter⟩
    rw [htake, hdrop, if_neg d.wholeDigits.ne_nil]
    simp only [hfraction, hafter, if_neg hnil, htail]
    rfl

theorem scientific_of_exponentPattern {text : Text} {sign : Bool} {whole fraction : Text} {n : Int}
    (h : exponentPattern text = some (sign, whole, fraction, n)) :
    ∃ (d : Decimal) (mark : Char) (e : Exponent), (mark = 'e' ∨ mark = 'E') ∧
      text = d.text ++ mark :: e.text ∧ d.sign = sign ∧ d.whole = whole ∧ d.fraction = fraction ∧
      e.toInt = n := by
  have htext := signGroup_text text
  simp only [exponentPattern] at h
  split at h
  · cases h
  · rename_i hwhole
    have hsplit := List.takeWhile_append_dropWhile (p := isDecDigit) (l := (signGroup text).2)
    split at h
    -- with a point, and below without one
    · rename_i after hdrop
      split at h
      · cases h
      · rename_i hfraction
        rcases Option.map_eq_some_iff.1 h with ⟨m, htail, hm⟩
        cases hm
        rcases exponent_of_exponentTail htail with ⟨mark, e, hmark, hafter, hn⟩
        have hrest := List.takeWhile_append_dropWhile (p := isDecDigit) (l := after)
        refine ⟨⟨_, _, _, digits_takeWhile hwhole, (digits_takeWhile hfraction).digits⟩, mark, e,
          hmark, ?_, rfl, rfl, rfl, hn⟩
        rw [hdrop, ← hrest, hafter] at hsplit
        rw [← hsplit] at htext
        simpa [Decimal.text, dotted, hfraction] using htext
    · rcases Option.map_eq_some_iff.1 h with ⟨m, htail, hm⟩
      cases hm
      rcases exponent_of_exponentTail htail with ⟨mark, e, hmark, hafter, hn⟩
      refine ⟨⟨_, _, [], digits_takeWhile hwhole, by simp⟩, mark, e, hmark, ?_, rfl, rfl, rfl, hn⟩
      rw [hafter] at hsplit
      rw [← hsplit] at htext
      simpa [Decimal.text, dotted] using htext

/-! ## Moving the point -/

theorem isDecDigit_replicate (n : Nat) : ∀ c ∈ List.replicate n '0', isDecDigit c = true := by
  intro c hc
  rw [List.eq_of_mem_replicate hc]
  decide

theorem value_append_zeros (s : Text) (n : Nat) :
    value 10 (s ++ List.replicate n '0') = value 10 s * 10 ^ n := by
  have hzeros : value 10 (List.replicate n '0') = 0 := by simpa using value_zeros 10 n []
  simp [value_append, hzeros]

theorem Decimal.magnitude_eq (d : Decimal) :
    d.magnitude = value 10 (d.whole ++ d.fraction) * 10 ^ (-(d.fraction.length : Int)) := by
  rw [Decimal.magnitude, zpow_neg, zpow_natCast, div_eq_mul_inv]

theorem Decimal.rat_eq {d d' : Decimal} {x : ℚ} (hsign : d'.sign = d.sign)
    (h : d'.magnitude = d.magnitude * x) : d'.rat = d.rat * x := by
  unfold Decimal.rat
  rw [hsign, h]
  cases d.sign with
  | false => rfl
  | true => exact (neg_mul _ _).symm

/-- All the digits of a decimal, without the point. -/
def Decimal.digits (d : Decimal) : Text := d.whole ++ d.fraction

theorem Decimal.digits_wellFormed (d : Decimal) : Digits d.digits where
  ne_nil := List.append_ne_nil_of_left_ne_nil d.wholeDigits.ne_nil _
  digits := by
    intro c hc
    rcases List.mem_append.1 hc with hc | hc
    · exact d.wholeDigits.digits c hc
    · exact d.fractionDigits c hc

/-- A decimal with the same digits, up to zeros, and the point moved by `n` denotes `10 ^ n` times as
much. -/
theorem Decimal.magnitude_shift {d d' : Decimal} {n : Int} (zeros : Nat)
    (hvalue : value 10 (d'.whole ++ d'.fraction) = value 10 d.digits * 10 ^ zeros)
    (hplaces : (d'.fraction.length : Int) = d.fraction.length - n + zeros) :
    d'.magnitude = d.magnitude * 10 ^ n := by
  rw [magnitude_eq, magnitude_eq, hvalue, hplaces, Nat.cast_mul, Nat.cast_pow, mul_assoc, mul_assoc,
    ← zpow_add₀ (by norm_num), Nat.cast_ofNat, ← zpow_natCast, ← zpow_add₀ (by norm_num)]
  congr 2
  ring

/-- The text an exponent expands to is a decimal that denotes the same. -/
theorem Decimal.expandExponent_text (d : Decimal) {mark : Char} (e : Exponent)
    (hmark : mark = 'e' ∨ mark = 'E') (hsmall : e.toInt.natAbs ≤ 60) :
    ∃ d' : Decimal, expandExponent (d.text ++ mark :: e.text) = .ok d'.text ∧
      d'.rat = d.rat * 10 ^ e.toInt := by
  have hdigits := d.digits_wellFormed
  have hlength : d.digits.length = d.whole.length + d.fraction.length := List.length_append
  have hjoin : d.whole ++ d.fraction = d.digits := rfl
  simp only [expandExponent, d.exponentPattern_text e hmark, require_of hsmall, ok_bind, hjoin]
  generalize e.toInt = n
  split_ifs with hbefore hbehind
  · -- zeros stand between the point and the digits
    generalize hk : (-((d.whole.length : Int) + n)).toNat = k
    have hall : ∀ c ∈ List.replicate k '0' ++ d.digits, isDecDigit c = true := by
      intro c hc
      rcases List.mem_append.1 hc with hc | hc
      · exact isDecDigit_replicate k c hc
      · exact hdigits.digits c hc
    refine ⟨⟨d.sign, ['0'], List.replicate k '0' ++ d.digits, digits_singleton rfl, hall⟩,
      pure_eq_ok.2 ?_, Decimal.rat_eq rfl (Decimal.magnitude_shift 0 ?_ ?_)⟩
    · simp [Decimal.text, dotted, hdigits.ne_nil]
    · have hzeros := value_zeros 10 (k + 1) d.digits
      simpa [List.replicate_succ] using hzeros
    · simp only [List.length_append, List.length_replicate]
      omega
  · -- zeros stand behind the digits
    generalize hk : ((d.whole.length : Int) + n - d.digits.length).toNat = k
    have hwhole : Digits (d.digits ++ List.replicate k '0') := by
      refine ⟨List.append_ne_nil_of_left_ne_nil hdigits.ne_nil _, ?_⟩
      intro c hc
      rcases List.mem_append.1 hc with hc | hc
      · exact hdigits.digits c hc
      · exact isDecDigit_replicate k c hc
    refine ⟨⟨d.sign, d.digits ++ List.replicate k '0', [], hwhole, by simp⟩,
      pure_eq_ok.2 ?_, Decimal.rat_eq rfl (Decimal.magnitude_shift k ?_ ?_)⟩
    · simp [Decimal.text, dotted]
    · rw [List.append_nil, value_append_zeros]
    · simp only [List.length_nil]
      omega
  · -- the point stands between the digits
    generalize hk : ((d.whole.length : Int) + n).toNat = k
    have hne : d.digits.take k ≠ [] := by
      rw [← List.length_pos_iff, List.length_take]
      omega
    have hrest : d.digits.drop k ≠ [] := by
      rw [← List.length_pos_iff, List.length_drop]
      omega
    refine ⟨⟨d.sign, d.digits.take k, d.digits.drop k,
      ⟨hne, fun c hc => hdigits.digits c (List.mem_of_mem_take hc)⟩,
      fun c hc => hdigits.digits c (List.mem_of_mem_drop hc)⟩,
      pure_eq_ok.2 ?_, Decimal.rat_eq rfl (Decimal.magnitude_shift 0 ?_ ?_)⟩
    · simp [Decimal.text, dotted, hrest]
    · simp
    · simp only [List.length_drop]
      omega

/-! ## Whole numbers of wei -/

/-- What is left of a fraction after stripping is empty, or ends with a digit that counts. -/
theorem strip_eq_concat {s : Text} (h : stripTrailingZeros s ≠ []) :
    ∃ front last, stripTrailingZeros s = front ++ [last] ∧ last ≠ '0' := by
  unfold stripTrailingZeros at h ⊢
  refine ⟨_, _, (List.dropLast_append_getLast h).symm, ?_⟩
  have hlast := List.rdropWhile_last_not (· == '0') s h
  simpa using hlast

theorem digitVal_mod_ne_zero {c : Char} (hdigit : isDecDigit c = true) (hc : c ≠ '0') :
    digitVal c % 10 ≠ 0 := by
  revert hc
  refine forall_mem_decDigits (P := fun c => c ≠ '0' → digitVal c % 10 ≠ 0) ?_
    (isDecDigit_iff.1 hdigit)
  simp only [decDigits, List.Forall]
  decide

theorem not_ten_dvd_strip {s : Text} (hs : ∀ c ∈ s, isDecDigit c = true)
    (h : stripTrailingZeros s ≠ []) : ¬ 10 ∣ value 10 (stripTrailingZeros s) := by
  rcases strip_eq_concat h with ⟨front, last, heq, hlast⟩
  have hdigit : isDecDigit last = true := by
    refine hs last (mem_of_mem_stripTrailingZeros ?_)
    rw [heq]
    simp
  rw [heq, value_append, value_cons, Nat.dvd_iff_mod_eq_zero]
  simpa using digitVal_mod_ne_zero hdigit hlast

namespace Decimal

/-- Zeros at the end of the fraction count for nothing. -/
theorem magnitude_strip (d : Decimal) :
    d.magnitude = value 10 d.whole +
      (value 10 (stripTrailingZeros d.fraction) : ℚ) /
        10 ^ (stripTrailingZeros d.fraction).length := by
  rcases stripTrailingZeros_append d.fraction with ⟨n, hn⟩
  have hlength : d.fraction.length = (stripTrailingZeros d.fraction).length + n := by
    simpa using congrArg List.length hn
  have hvalue : value 10 d.fraction = value 10 (stripTrailingZeros d.fraction) * 10 ^ n := by
    rw [← value_append_zeros, ← hn]
  rw [magnitude, value_append, hvalue, hlength, pow_add]
  push_cast
  rw [pow_add]
  field_simp

theorem magnitude_exact {d : Decimal} (h : (stripTrailingZeros d.fraction).length ≤ decimals) :
    d.magnitude * 10 ^ decimals =
      (value 10 d.whole * scale + value 10 (padEnd decimals '0' (stripTrailingZeros d.fraction)) :
        Nat) := by
  rw [magnitude_strip]
  generalize stripTrailingZeros d.fraction = fraction at h
  have hpad : value 10 (padEnd decimals '0' fraction) =
      value 10 fraction * 10 ^ (decimals - fraction.length) := value_append_zeros _ _
  have hpow : (10 : ℚ) ^ decimals = 10 ^ (decimals - fraction.length) * 10 ^ fraction.length := by
    rw [← pow_add, Nat.sub_add_cancel h]
  rw [hpad, scale]
  push_cast
  rw [add_mul, div_mul_eq_mul_div, hpow]
  field_simp

theorem magnitude_inexact {d : Decimal} (h : ¬ (stripTrailingZeros d.fraction).length ≤ decimals)
    (n : Int) : d.magnitude * 10 ^ decimals ≠ n := by
  intro heq
  have hne : stripTrailingZeros d.fraction ≠ [] := by
    intro hnil
    rw [hnil] at h
    exact h (Nat.zero_le _)
  refine not_ten_dvd_strip d.fractionDigits hne ?_
  rw [magnitude_strip] at heq
  generalize stripTrailingZeros d.fraction = fraction at h heq
  -- the digits beyond the 18th would have to be zeros
  obtain ⟨k, hk⟩ : ∃ k, fraction.length = decimals + (k + 1) :=
    ⟨fraction.length - decimals - 1, by omega⟩
  have hscaled : (value 10 fraction : ℚ) =
      ((n - value 10 d.whole * 10 ^ decimals) * 10 ^ k * 10 : Int) := by
    push_cast
    rw [← heq, hk, pow_add, pow_succ]
    field_simp
    ring
  have hint : (value 10 fraction : Int) = (n - value 10 d.whole * 10 ^ decimals) * 10 ^ k * 10 := by
    exact_mod_cast hscaled
  have hdvd : (10 : Int) ∣ value 10 fraction := by
    rw [hint]
    exact dvd_mul_left _ _
  exact_mod_cast hdvd

theorem rat_scaled (d : Decimal) :
    d.rat * 10 ^ decimals =
      if d.sign then -(d.magnitude * 10 ^ decimals) else d.magnitude * 10 ^ decimals := by
  unfold rat
  cases d.sign with
  | false => rfl
  | true => exact neg_mul _ _

/-- Once its exponent is worked off, a text is read as what it denotes, or refused. -/
theorem amountFrom_iff {d : Decimal} {text : Text} (h : expandExponent (trim text) = .ok d.text)
    (wei : Int) : amountFrom text = .ok ⟨wei⟩ ↔ d.rat * 10 ^ decimals = wei := by
  simp only [amountFrom, h, ok_bind, d.decimalPattern_text]
  -- with at most 18 decimals the scaled number is the integer that is returned, with more it is none
  by_cases hlength : (stripTrailingZeros d.fraction).length ≤ decimals
  · rw [require_of hlength, ok_bind, pure_eq_ok, rat_scaled, magnitude_exact hlength, Amount.mk.injEq]
    cases d.sign with
    | false =>
        simp only [Bool.false_eq_true, if_false]
        norm_cast
    | true =>
        simp only [if_true]
        norm_cast
  · have hrefused : ¬ d.rat * 10 ^ decimals = wei := by
      rw [rat_scaled]
      cases d.sign with
      | false =>
          simp only [Bool.false_eq_true, if_false]
          exact magnitude_inexact hlength wei
      | true =>
          simp only [if_true]
          intro heq
          refine magnitude_inexact hlength (-wei) ?_
          rw [Int.cast_neg, ← heq, neg_neg]
    refine iff_of_false ?_ hrefused
    intro hread
    rcases bind_eq_ok.1 hread with ⟨_, hrequire, _⟩
    exact hlength (require_eq_ok.1 hrequire)

end Decimal

/-- A text that denotes a number is read as its number of wei, if that is a whole one. -/
theorem amountFrom_of_denotes {text : Text} {q : ℚ} (h : Denotes (trim text) q) (wei : Int) :
    amountFrom text = .ok ⟨wei⟩ ↔ q * 10 ^ decimals = wei := by
  generalize htrim : trim text = t at h
  cases h with
  | decimal d =>
      refine d.amountFrom_iff ?_ wei
      rw [htrim]
      exact expandExponent_of_plain (plain_decimal d.sign d.wholeDigits d.fractionDigits)
  | scientific d e hmark hsmall =>
      rcases d.expandExponent_text e hmark hsmall with ⟨d', hexpand, hrat⟩
      rw [← hrat]
      refine d'.amountFrom_iff ?_ wei
      rw [htrim]
      exact hexpand

theorem denotes_of_amountFrom {text : Text} {a : Amount} (h : amountFrom text = .ok a) :
    ∃ q, Denotes (trim text) q := by
  rcases bind_eq_ok.1 h with ⟨expanded, hexpand, hread⟩
  cases hpattern : exponentPattern (trim text) with
  | none =>
      -- without an exponent the text itself has to be a decimal
      simp only [expandExponent, hpattern, Except.ok.injEq] at hexpand
      subst hexpand
      cases hdecimal : decimalPattern (trim text) with
      | none =>
          rw [hdecimal] at hread
          cases hread
      | some groups =>
          rcases decimal_of_decimalPattern hdecimal with ⟨d, htext, _⟩
          rw [htext]
          exact ⟨_, .decimal d⟩
  | some groups =>
      rcases scientific_of_exponentPattern hpattern with
        ⟨d, mark, e, hmark, htext, _, _, _, hexponent⟩
      simp only [expandExponent, hpattern] at hexpand
      rcases bind_eq_ok.1 hexpand with ⟨_, hsmall, _⟩
      rw [htext]
      refine ⟨_, .scientific d e hmark ?_⟩
      rw [hexponent]
      exact require_eq_ok.1 hsmall

/-- A text is accepted exactly if it denotes a whole number of wei, and then that is what is read. -/
theorem amountFrom_exact (text : Text) :
    ((∃ a, amountFrom text = .ok a) ↔
      ∃ q, Denotes (trim text) q ∧ ∃ wei : Int, q * 10 ^ 18 = wei) ∧
    ∀ a q, amountFrom text = .ok a → Denotes (trim text) q → q * 10 ^ 18 = a.wei := by
  refine ⟨⟨?_, ?_⟩, ?_⟩
  · rintro ⟨a, h⟩
    rcases denotes_of_amountFrom h with ⟨q, hq⟩
    exact ⟨q, hq, a.wei, (amountFrom_of_denotes hq a.wei).1 h⟩
  · rintro ⟨q, hq, wei, hwei⟩
    exact ⟨⟨wei⟩, (amountFrom_of_denotes hq wei).2 hwei⟩
  · intro a q h hq
    exact (amountFrom_of_denotes hq a.wei).1 h

/-- The text `5e-1`. -/
theorem amountFrom_exact_half :
    ∃ a, amountFrom ['5', 'e', '-', '1'] = .ok a ∧ a.wei = 5 * 10 ^ 17 := by
  let d : Decimal := ⟨false, ['5'], [], digits_singleton rfl, by simp⟩
  let e : Exponent := ⟨some true, ['1'], digits_singleton rfl⟩
  have hdenotes : Denotes (trim ['5', 'e', '-', '1']) (d.rat * 10 ^ e.toInt) :=
    .scientific d e (Or.inl rfl) (by decide)
  have hrat : d.rat = 5 := by
    have hvalue : value 10 ['5'] = 5 := by decide
    simp [Decimal.rat, Decimal.magnitude, hvalue, d]
  have hwei : d.rat * 10 ^ e.toInt * 10 ^ 18 = ((5 * 10 ^ 17 : Int) : ℚ) := by
    have hexponent : e.toInt = -1 := by decide
    rw [hrat, hexponent]
    norm_num
  have hexact := amountFrom_exact ['5', 'e', '-', '1']
  rcases hexact.1.2 ⟨_, hdenotes, _, hwei⟩ with ⟨a, ha⟩
  refine ⟨a, ha, ?_⟩
  have hread := hexact.2 a _ ha hdenotes
  rw [hwei] at hread
  exact_mod_cast hread.symm

end Money
end PaymentRail
