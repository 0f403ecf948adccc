import Mathlib.Data.List.Induction
import PaymentRail.Fees.FeePolicy
import PaymentRail.Money.ExactReading

/-!
# ExactPrinting — the texts of an amount

Two texts of digits with the same value differ by zeros in front (`zeros_append_toDigits`).  So every
decimal text of an amount is its `toPlain` with zeros put in front and at the end, and possibly a
minus in front of a zero (`Padded`), and `toPlain` is the shortest of them.
-/

namespace PaymentRail
namespace Money

open Machine Strings

/-! ## Digits with the same value -/

theorem digitChar_digitVal {c : Char} (h : isDecDigit c = true) :
    (digitVal c).digitChar = c ∧ digitVal c < 10 := by
  refine forall_mem_decDigits (P := fun c => (digitVal c).digitChar = c ∧ digitVal c < 10) ?_
    (isDecDigit_iff.1 h)
  simp only [decDigits, List.Forall]
  decide

theorem value_concat (s : Text) (c : Char) : value 10 (s ++ [c]) = value 10 s * 10 + digitVal c := by
  simp [value_append, value_cons]

/-- A text of digits is the number it stands for, with zeros in front. -/
theorem zeros_append_toDigits {s : Text} (h : Digits s) :
    ∃ k, s = List.replicate k '0' ++ Nat.toDigits 10 (value 10 s) := by
  -- from the right: printing appends the last digit to what was there, unless that was zero
  induction s using List.reverseRecOn with
  | nil => exact absurd rfl h.ne_nil
  | append_singleton s c ih =>
      rcases digitChar_digitVal (h.digits c (by simp)) with ⟨hchar, hlt⟩
      have hsingle : Nat.toDigits 10 (digitVal c) = [c] := by
        rw [Nat.toDigits_of_lt_base hlt, hchar]
      rw [value_concat]
      by_cases hnil : s = []
      · refine ⟨0, ?_⟩
        simp [hnil, hsingle]
      · obtain ⟨k, hk⟩ := ih ⟨hnil, fun d hd => h.digits d (by simp [hd])⟩
        by_cases hzero : value 10 s = 0
        · refine ⟨k + 1, ?_⟩
          rw [hzero] at hk
          rw [hzero, Nat.zero_mul, Nat.zero_add, hsingle, List.replicate_succ', hk]
          rfl
        · refine ⟨k, ?_⟩
          have hprint : Nat.toDigits 10 (value 10 s * 10 + digitVal c) =
              Nat.toDigits 10 (value 10 s) ++ [c] := by
            have hle : 10 ≤ value 10 s * 10 + digitVal c := by omega
            have hdiv : (value 10 s * 10 + digitVal c) / 10 = value 10 s := by omega
            have hmod : (value 10 s * 10 + digitVal c) % 10 = digitVal c := by omega
            rw [Nat.toDigits_of_base_le (by decide) hle, hdiv, hmod, hchar]
          rw [hprint, ← List.append_assoc, ← hk]

theorem eq_of_value_eq {s t : Text} (hs : Digits s) (ht : Digits t)
    (hvalue : value 10 s = value 10 t) (hlength : s.length = t.length) : s = t := by
  rcases zeros_append_toDigits hs with ⟨k, hk⟩
  rcases zeros_append_toDigits ht with ⟨m, hm⟩
  have hzeros : k = m := by
    rw [hk, hm, hvalue] at hlength
    simpa using hlength
  rw [hk, hm, hvalue, hzeros]

/-- A printed number has no zero in front, unless it is the zero. -/
theorem head_toDigits (n : Nat) :
    Nat.toDigits 10 n = ['0'] ∨ (Nat.toDigits 10 n).head? ≠ some '0' := by
  by_cases hhead : (Nat.toDigits 10 n).head? = some '0'
  · left
    rcases List.head?_eq_some_iff.1 hhead with ⟨rest, hrest⟩
    have hvalue : value 10 rest = n := by
      have hall := value_toDigits (b := 10) (by decide) (by decide) n
      rw [hrest] at hall
      have hzero : digitVal '0' = 0 := rfl
      simpa [value_cons, hzero] using hall
    by_cases hnil : rest = []
    · rw [hrest, hnil]
    · -- the rest would be a shorter text of the same number
      have hdigits := digits_toDigits n
      rw [hrest] at hdigits
      rcases zeros_append_toDigits (s := rest)
        ⟨hnil, fun c hc => hdigits.digits c (List.mem_cons_of_mem _ hc)⟩ with ⟨k, hk⟩
      rw [hvalue, hrest] at hk
      have hlength := congrArg List.length hk
      simp at hlength
      omega
  · exact Or.inr hhead

/-! ## Zeros at the end -/

theorem strip_append_zeros (s : Text) (n : Nat) :
    stripTrailingZeros (s ++ List.replicate n '0') = stripTrailingZeros s := by
  induction n with
  | zero => simp
  | succ n ih =>
      rw [List.replicate_succ', ← List.append_assoc, stripTrailingZeros,
        List.rdropWhile_concat_pos _ _ _ rfl]
      exact ih

theorem strip_strip (s : Text) : stripTrailingZeros (stripTrailingZeros s) = stripTrailingZeros s :=
  List.rdropWhile_idempotent _ _

theorem strip_padEnd (width : Nat) (s : Text) :
    stripTrailingZeros (padEnd width '0' (stripTrailingZeros s)) = stripTrailingZeros s := by
  rw [padEnd, strip_append_zeros, strip_strip]

theorem getLast_strip (s : Text) : (stripTrailingZeros s).getLast? ≠ some '0' := by
  intro hlast
  have hne : stripTrailingZeros s ≠ [] := by
    intro hnil
    rw [hnil] at hlast
    cases hlast
  rcases strip_eq_concat hne with ⟨front, last, heq, hc⟩
  rw [heq, List.getLast?_concat] at hlast
  exact hc (Option.some.inj hlast)

/-! ## All texts of an amount -/

theorem Decimal.expandExponent_trim (d : Decimal) : expandExponent (trim d.text) = .ok d.text := by
  have hplain := plain_decimal d.sign d.wholeDigits d.fractionDigits
  rw [Decimal.text, trim_eq_self fun c hc => isWhiteSpace_of_plain (hplain c hc)]
  exact expandExponent_of_plain hplain

theorem Decimal.magnitude_nonneg (d : Decimal) : 0 ≤ d.magnitude :=
  div_nonneg (Nat.cast_nonneg _) (pow_nonneg (by norm_num) _)

/-- `d` is `p` with zeros that count for nothing, or with a minus in front of a zero. -/
structure Padded (p d : Decimal) : Prop where
  sign : p.sign = true → d.sign = true
  whole : ∃ k, d.whole = List.replicate k '0' ++ p.whole
  fraction : ∃ m, d.fraction = p.fraction ++ List.replicate m '0'

theorem length_dotted_append (fraction : Text) (m : Nat) :
    (dotted fraction).length + m ≤ (dotted (fraction ++ List.replicate m '0')).length := by
  by_cases hnil : fraction = []
  · cases m with
    | zero => simp [hnil, dotted]
    | succ m => simp [hnil, dotted, List.replicate_succ]
  · simp [hnil, dotted]
    omega

/-- What is not left out makes a text longer. -/
theorem Padded.shortest {p d : Decimal} (h : Padded p d) :
    d.text = p.text ∨ p.text.length < d.text.length := by
  rcases h.whole with ⟨k, hk⟩
  rcases h.fraction with ⟨m, hm⟩
  have hdotted := length_dotted_append p.fraction m
  have hlength : d.text.length =
      (minus d.sign).length + (k + (p.whole.length + (dotted d.fraction).length)) := by
    simp [Decimal.text, hk]
  have hplain : p.text.length =
      (minus p.sign).length + (p.whole.length + (dotted p.fraction).length) := by
    simp [Decimal.text]
  rw [← hm] at hdotted
  have hsign : d.sign = p.sign ∨ (minus p.sign).length < (minus d.sign).length := by
    cases hp : p.sign with
    | true => exact Or.inl (h.sign hp)
    | false =>
        cases d.sign with
        | false => exact Or.inl rfl
        | true => exact Or.inr Nat.one_pos
  -- every difference from the plain text makes the other one longer
  rcases hsign with hsign | hsign
  · rw [hsign] at hlength
    by_cases hzeros : k = 0 ∧ m = 0
    · left
      rw [Decimal.text, hk, hm, hzeros.1, hzeros.2, hsign]
      simp [Decimal.text]
    · right
      omega
  · right
    omega

namespace Amount

/-- The parts of `toPlain`. -/
def plain (a : Amount) : Decimal where
  sign := decide (a.wei < 0)
  whole := Nat.toDigits 10 (a.wei.natAbs / scale)
  fraction := stripTrailingZeros a.fractionDigits
  wholeDigits := digits_toDigits _
  fractionDigits := isDecDigit_strip_fractionDigits a

theorem text_plain (a : Amount) : a.plain.text = a.toPlain := (toPlain_eq a).symm

theorem rat_plain (a : Amount) : a.plain.rat * 10 ^ decimals = a.wei := by
  have hread := amountFrom_toPlain a
  rw [← text_plain] at hread
  exact (a.plain.amountFrom_iff a.plain.expandExponent_trim a.wei).1 hread

/-- The magnitude of a decimal of the amount, in wei. -/
theorem magnitude_natAbs {a : Amount} {d : Decimal} (h : d.rat * 10 ^ decimals = a.wei) :
    d.magnitude * 10 ^ decimals = (a.wei.natAbs : Int) := by
  have hnonneg : 0 ≤ d.magnitude * 10 ^ decimals :=
    mul_nonneg d.magnitude_nonneg (pow_nonneg (by norm_num) _)
  rw [Int.natCast_natAbs, Int.cast_abs, ← h, d.rat_scaled]
  cases d.sign with
  | false =>
      simp only [Bool.false_eq_true, if_false]
      exact (abs_of_nonneg hnonneg).symm
  | true =>
      simp only [if_true, abs_neg]
      exact (abs_of_nonneg hnonneg).symm

theorem padded_of_rat {a : Amount} {d : Decimal} (h : d.rat * 10 ^ decimals = a.wei) :
    Padded a.plain d := by
  have hmagnitude := magnitude_natAbs h
  have hlength : (stripTrailingZeros d.fraction).length ≤ decimals := by
    by_contra hlong
    exact d.magnitude_inexact hlong _ hmagnitude
  have hpadLength : (padEnd decimals '0' (stripTrailingZeros d.fraction)).length = decimals := by
    simp [padEnd]
    omega
  have hpadDigits : ∀ c ∈ padEnd decimals '0' (stripTrailingZeros d.fraction),
      isDecDigit c = true := by
    intro c hc
    rcases List.mem_append.1 hc with hc | hc
    · exact d.fractionDigits c (mem_of_mem_stripTrailingZeros hc)
    · exact isDecDigit_replicate _ c hc
  -- whole part and decimals are the quotient and the remainder by the scale
  have hsplit : value 10 (padEnd decimals '0' (stripTrailingZeros d.fraction)) +
      scale * value 10 d.whole = a.wei.natAbs := by
    rw [Decimal.magnitude_exact hlength] at hmagnitude
    have hnat : value 10 d.whole * scale +
        value 10 (padEnd decimals '0' (stripTrailingZeros d.fraction)) = a.wei.natAbs := by
      exact_mod_cast hmagnitude
    rw [Nat.add_comm, Nat.mul_comm]
    exact hnat
  have hlt : value 10 (padEnd decimals '0' (stripTrailingZeros d.fraction)) < scale := by
    have hlt := value_lt_pow fun c hc => (digitChar_digitVal (hpadDigits c hc)).2
    rw [hpadLength] at hlt
    exact hlt
  rcases (Nat.div_mod_unique (by decide)).2 ⟨hsplit, hlt⟩ with ⟨hdiv, hmod⟩
  refine ⟨?_, ?_, ?_⟩
  · intro hneg
    by_contra hsign
    have hrat : d.rat * 10 ^ decimals = (a.wei.natAbs : Int) := by
      rw [d.rat_scaled, if_neg hsign, hmagnitude]
    rw [h] at hrat
    have hwei : a.wei = a.wei.natAbs := by exact_mod_cast hrat
    have hless : a.wei < 0 := of_decide_eq_true hneg
    omega
  · rcases zeros_append_toDigits d.wholeDigits with ⟨k, hk⟩
    rw [← hdiv] at hk
    exact ⟨k, hk⟩
  · have hfraction : padEnd decimals '0' (stripTrailingZeros d.fraction) = a.fractionDigits := by
      have hne : ∀ {s : Text}, s.length = decimals → s ≠ [] := by
        rintro s hs rfl
        exact absurd hs (by decide)
      refine eq_of_value_eq ⟨hne hpadLength, hpadDigits⟩
        ⟨hne a.length_fractionDigits, a.isDecDigit_fractionDigits⟩ ?_ ?_
      · rw [a.value_fractionDigits, hmod]
      · rw [hpadLength, a.length_fractionDigits]
    rcases stripTrailingZeros_append d.fraction with ⟨m, hm⟩
    refine ⟨m, ?_⟩
    show d.fraction = stripTrailingZeros a.fractionDigits ++ List.replicate m '0'
    rw [← hfraction, strip_padEnd]
    exact hm

/-- Nothing is left of the decimals exactly of a whole number of tokens. -/
theorem strip_eq_nil_iff (a : Amount) :
    stripTrailingZeros a.fractionDigits = [] ↔ (scale : Int) ∣ a.wei := by
  rw [Int.natCast_dvd, Nat.dvd_iff_mod_eq_zero]
  constructor
  · intro hnil
    rcases stripTrailingZeros_append a.fractionDigits with ⟨n, hn⟩
    rw [← a.value_fractionDigits, hn, hnil]
    simpa using value_append_zeros [] n
  · intro hmod
    rw [fractionDigits, hmod]
    decide

theorem toString_eq_toPlain (a : Amount) :
    a.toString = if (scale : Int) ∣ a.wei then a.toPlain ++ ['.', '0'] else a.toPlain := by
  rw [toString_eq, toPlain_eq]
  by_cases hnil : stripTrailingZeros a.fractionDigits = []
  · rw [if_pos hnil, if_pos (a.strip_eq_nil_iff.1 hnil), hnil]
    simp [dotted]
  · rw [if_neg hnil, if_neg (mt a.strip_eq_nil_iff.2 hnil)]

theorem toFixed_eq (a : Amount) : a.toFixed =
    minus (decide (a.wei < 0)) ++
      (Nat.toDigits 10 (a.wei.natAbs / scale) ++ '.' :: a.fractionDigits) := by
  simp only [toFixed, fractionDigits, List.append_assoc]

end Amount

theorem amountPattern_text {whole fraction : Text} (hwhole : Digits whole)
    (hwidth : whole.length ≤ 18) (hfraction : ∀ c ∈ fraction, isDecDigit c = true)
    (hplaces : fraction.length ≤ 18) : Fees.amountPattern (whole ++ dotted fraction) = true := by
  have hupTo : ∀ {s : Text}, Digits s → s.length ≤ 18 → Fees.upTo18Digits s = true := by
    intro s hs hlength
    have hpos : 1 ≤ s.length := List.length_pos_iff.2 hs.ne_nil
    simp [Fees.upTo18Digits, hs.all, hpos, hlength]
  have hhead : ∀ c ∈ (dotted fraction).head?, isDecDigit c = false := by
    intro c hc
    by_cases hnil : fraction = []
    · simp [dotted, hnil] at hc
    · obtain rfl : '.' = c := by simpa [dotted, hnil] using hc
      decide
  rcases takeWhile_digits hwhole.digits hhead with ⟨htake, hdrop⟩
  rw [Fees.amountPattern, hdrop, htake]
  by_cases hnil : fraction = []
  · simp [dotted, hnil, hupTo hwhole hwidth]
  · simp [dotted, hnil, hupTo hwhole hwidth, hupTo ⟨hnil, hfraction⟩ hplaces]

/-- An amount below `10 ^ 18` tokens has at most 18 digits before the point. -/
theorem amountPattern_of_small {a : Amount} (hnonneg : 0 ≤ a.wei) (hsmall : a.wei < 10 ^ 36)
    {fraction : Text} (hfraction : ∀ c ∈ fraction, isDecDigit c = true)
    (hplaces : fraction.length ≤ 18) :
    Fees.amountPattern (minus (decide (a.wei < 0)) ++
      (Nat.toDigits 10 (a.wei.natAbs / scale) ++ dotted fraction)) = true := by
  have hsign : decide (a.wei < 0) = false := decide_eq_false (Int.not_lt.2 hnonneg)
  have hwhole : a.wei.natAbs / scale < 10 ^ 18 := by
    rw [Nat.div_lt_iff_lt_mul (by decide)]
    have hproduct : 10 ^ 18 * scale = 10 ^ 36 := by decide
    omega
  rw [hsign]
  exact amountPattern_text (digits_toDigits _)
    ((Nat.length_toDigits_le_iff (by decide) (by decide)).2 hwhole) hfraction hplaces

/-- The three texts of an amount: all are read back, `toPlain` is the shortest decimal text, `toString`
shows at least one decimal and `toFixed` all 18, and quotations accept them. -/
theorem amount_texts_round_trip (wei : Int) :
    let a := Amount.fromWei wei
    (amountFrom a.toString = .ok a ∧ amountFrom a.toPlain = .ok a ∧ amountFrom a.toFixed = .ok a) ∧
    (∃ d : Decimal, d.text = a.toPlain ∧ d.rat * 10 ^ 18 = wei ∧
      (d.whole = ['0'] ∨ d.whole.head? ≠ some '0') ∧ d.fraction.getLast? ≠ some '0') ∧
    (∀ d : Decimal, d.rat * 10 ^ 18 = wei →
      d.text = a.toPlain ∨ a.toPlain.length < d.text.length) ∧
    a.toString = (if (10 ^ 18 : Int) ∣ wei then a.toPlain ++ ['.', '0'] else a.toPlain) ∧
    (∃ whole fraction, Digits whole ∧ Digits fraction ∧ fraction.length = 18 ∧
      a.toFixed = minus (decide (wei < 0)) ++ (whole ++ '.' :: fraction)) ∧
    (0 ≤ wei → wei < 10 ^ 18 * 10 ^ 18 → Fees.amountPattern a.toString = true ∧
      Fees.amountPattern a.toPlain = true ∧ Fees.amountPattern a.toFixed = true) := by
  intro a
  have hdigits : Digits a.fractionDigits := by
    refine ⟨?_, a.isDecDigit_fractionDigits⟩
    rw [← List.length_pos_iff, a.length_fractionDigits]
    decide
  have hplaces : (stripTrailingZeros a.fractionDigits).length ≤ 18 :=
    (length_stripTrailingZeros_le _).trans a.length_fractionDigits.le
  refine ⟨⟨a.amountFrom_toString, a.amountFrom_toPlain, a.amountFrom_toFixed⟩,
    ⟨a.plain, a.text_plain, a.rat_plain, head_toDigits _, getLast_strip _⟩, ?_,
    a.toString_eq_toPlain, ⟨_, _, digits_toDigits _, hdigits, a.length_fractionDigits, a.toFixed_eq⟩,
    ?_⟩
  · intro d hd
    rw [← a.text_plain]
    exact (Amount.padded_of_rat (a := a) hd).shortest
  · intro hnonneg hsmall
    -- the whole part has at most 18 digits; each form has its own fraction
    refine ⟨?_, ?_, ?_⟩
    · rw [a.toString_eq]
      split_ifs
      · exact amountPattern_of_small hnonneg hsmall (digits_singleton rfl).digits (by decide)
      · exact amountPattern_of_small hnonneg hsmall a.isDecDigit_strip_fractionDigits hplaces
    · rw [a.toPlain_eq]
      exact amountPattern_of_small hnonneg hsmall a.isDecDigit_strip_fractionDigits hplaces
    · have hfixed := amountPattern_of_small (a := a) hnonneg hsmall hdigits.digits
        a.length_fractionDigits.le
      rw [a.toFixed_eq]
      simpa [dotted, hdigits.ne_nil] using hfixed

theorem amount_texts_round_trip_half :
    amountFrom (Amount.fromWei (5 * 10 ^ 17)).toPlain = .ok (Amount.fromWei (5 * 10 ^ 17)) ∧
      Fees.amountPattern (Amount.fromWei (5 * 10 ^ 17)).toPlain = true := by
  rcases amount_texts_round_trip (5 * 10 ^ 17) with ⟨⟨_, hread, _⟩, _, _, _, _, hquote⟩
  exact ⟨hread, (hquote (by decide) (by decide)).2.1⟩

end Money
end PaymentRail
