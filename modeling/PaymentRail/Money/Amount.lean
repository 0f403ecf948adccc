import Mathlib.Data.List.DropRight
import Mathlib.Data.List.TakeWhile
import PaymentRail.Machine.Except
import PaymentRail.Strings.BigInt

/-!
# Amount — money as an integer number of wei

This module embeds `common/money/amount.ts`.  An amount is an integer scaled by `10 ^ 18`; texts
are read exactly or refused, and the three textual forms of an amount are read back to it
(`amountFrom_toString`, `amountFrom_toPlain`, `amountFrom_toFixed`).
-/

namespace PaymentRail
namespace Money

open Machine Strings

/-- `DECIMALS` -/
def decimals : Nat := 18

/-- `SCALE` -/
def scale : Nat := 10 ^ decimals

structure Amount where
  wei : Int
  deriving DecidableEq, Repr

/-! ## Reading -/

/-- The group `(-?)` and what follows it. -/
def signGroup : Text → Bool × Text
  | '-' :: rest => (true, rest)
  | rest => (false, rest)

def minus (sign : Bool) : Text := if sign then ['-'] else []

/-- `/^(-?)(\d+)(?:\.(\d+))?$/`, with the groups sign, whole and fraction. -/
def decimalPattern (text : Text) : Option (Bool × Text × Text) :=
  let (sign, rest) := signGroup text
  let whole := rest.takeWhile isDecDigit
  if whole = [] then
    none
  else
    match rest.dropWhile isDecDigit with
    | [] => some (sign, whole, [])
    | '.' :: fraction =>
        if fraction ≠ [] ∧ fraction.all isDecDigit = true then some (sign, whole, fraction) else none
    | _ => none

/-- The group `([+-]?\d+)` as a number. -/
def exponentGroup (text : Text) : Option Int :=
  match text with
  | '-' :: digits =>
      if digits ≠ [] ∧ digits.all isDecDigit = true then some (-(value 10 digits : Int)) else none
  | '+' :: digits =>
      if digits ≠ [] ∧ digits.all isDecDigit = true then some (value 10 digits) else none
  | digits =>
      if digits ≠ [] ∧ digits.all isDecDigit = true then some (value 10 digits) else none

/-- What follows the digits before the exponent: `e([+-]?\d+)$`, in either letter case. -/
def exponentTail : Text → Option Int
  | 'e' :: exponent => exponentGroup exponent
  | 'E' :: exponent => exponentGroup exponent
  | _ => none

/-- `/^(-?)(\d+)(?:\.(\d+))?e([+-]?\d+)$/i`, with the exponent as a number. -/
def exponentPattern (text : Text) : Option (Bool × Text × Text × Int) :=
  let (sign, rest) := signGroup text
  let whole := rest.takeWhile isDecDigit
  if whole = [] then
    none
  else
    match rest.dropWhile isDecDigit with
    | '.' :: after =>
        let fraction := after.takeWhile isDecDigit
        if fraction = [] then none
        else (exponentTail (after.dropWhile isDecDigit)).map fun e => (sign, whole, fraction, e)
    | after => (exponentTail after).map fun e => (sign, whole, [], e)

def expandExponent (text : Text) : Except String Text :=
  match exponentPattern text with
  | none => .ok text
  | some (sign, whole, fraction, exponent) => do
      require (exponent.natAbs ≤ 60) ("Invalid amount: \"" ++ String.ofList text ++ "\"")
      -- the point moves by the exponent: before, behind or between the digits
      let digits := whole ++ fraction
      let point : Int := whole.length + exponent
      if point ≤ 0 then
        return minus sign ++ ('0' :: '.' :: List.replicate (-point).toNat '0') ++ digits
      else if digits.length ≤ point then
        return minus sign ++ digits ++ List.replicate (point - digits.length).toNat '0'
      else
        return minus sign ++ digits.take point.toNat ++ '.' :: digits.drop point.toNat

/-- `s.replace(/0+$/, '')` -/
def stripTrailingZeros (s : Text) : Text := s.rdropWhile (· == '0')

/-- `Amount.from` on a string. -/
def amountFrom (text : Text) : Except String Amount := do
  let expanded ← expandExponent (trim text)
  match decimalPattern expanded with
  | none => .error ("Invalid amount: \"" ++ String.ofList text ++ "\"")
  | some (sign, whole, fractionRaw) =>
      -- decimals beyond the 18th are allowed as long as they are zeros
      let fraction := stripTrailingZeros fractionRaw
      require (fraction.length ≤ decimals)
        ("Amount \"" ++ String.ofList text ++ "\" has more than " ++ toString decimals ++ " decimals")
      let wei : Int := value 10 whole * scale + value 10 (padEnd decimals '0' fraction)
      return ⟨if sign then -wei else wei⟩

/-- `fraction ? '.' + fraction : ''` -/
def dotted (fraction : Text) : Text := if fraction = [] then [] else '.' :: fraction

namespace Amount

/-- `Amount.fromWei` -/
def fromWei (wei : Int) : Amount := ⟨wei⟩

/-- `Amount.sum` of amounts that are already parsed. -/
def sum (values : List Amount) : Amount :=
  fromWei (values.foldl (fun total value => total + value.wei) 0)

theorem sum_eq (values : List Amount) : sum values = ⟨(values.map Amount.wei).sum⟩ := by
  rw [sum, fromWei, List.sum_eq_foldl, List.foldl_map]

protected def min (a b : Amount) : Amount := if a.wei ≤ b.wei then a else b

def plus (a b : Amount) : Amount := fromWei (a.wei + b.wei)

/-- Subtraction that stops at zero. -/
def minusFloored (a b : Amount) : Amount :=
  if 0 < a.wei - b.wei then fromWei (a.wei - b.wei) else fromWei 0

@[simp] theorem wei_fromWei (wei : Int) : (fromWei wei).wei = wei := rfl

theorem wei_min (a b : Amount) : (Amount.min a b).wei = min a.wei b.wei := by
  by_cases h : a.wei ≤ b.wei
  · simp [Amount.min, h]
  · have hle : b.wei ≤ a.wei := by omega
    simp [Amount.min, h, hle]

theorem wei_minusFloored (a b : Amount) : (minusFloored a b).wei = max (a.wei - b.wei) 0 := by
  by_cases h : 0 < a.wei - b.wei
  · simp only [minusFloored, h, if_true, wei_fromWei]
    omega
  · simp only [minusFloored, h, if_false, wei_fromWei]
    omega

/-! ## Printing -/

def toPlain (a : Amount) : Text :=
  let negative := decide (a.wei < 0)
  let whole := a.wei.natAbs / scale
  let fraction := stripTrailingZeros (padStart decimals '0' (Nat.toDigits 10 (a.wei.natAbs % scale)))
  minus negative ++ Nat.toDigits 10 whole ++ dotted fraction

protected def toString (a : Amount) : Text :=
  let plain := a.toPlain
  if '.' ∈ plain then plain else plain ++ ['.', '0']

def toFixed (a : Amount) : Text :=
  let negative := decide (a.wei < 0)
  let fraction := padStart decimals '0' (Nat.toDigits 10 (a.wei.natAbs % scale))
  minus negative ++ Nat.toDigits 10 (a.wei.natAbs / scale) ++ '.' :: fraction

end Amount

/-! ## Texts that are plain decimals -/

/-- The characters of a plain decimal text. -/
def Plain (c : Char) : Prop := c ∈ decDigits ∨ c = '-' ∨ c = '.'

theorem isWhiteSpace_of_plain {c : Char} (h : Plain c) : isWhiteSpace c = false := by
  rcases h with hdigit | rfl | rfl
  · refine forall_mem_decDigits (P := fun c => isWhiteSpace c = false) ?_ hdigit
    simp only [decDigits, List.Forall]
    decide
  · decide
  · decide

theorem ne_e_of_plain {c : Char} (h : Plain c) : c ≠ 'e' ∧ c ≠ 'E' := by
  rcases h with hdigit | rfl | rfl
  · refine forall_mem_decDigits (P := fun c => c ≠ 'e' ∧ c ≠ 'E') ?_ hdigit
    simp only [decDigits, List.Forall]
    decide
  · decide
  · decide

theorem plain_of_isDecDigit {c : Char} (h : isDecDigit c = true) : Plain c :=
  Or.inl (isDecDigit_iff.1 h)

theorem exponentTail_eq_none {text : Text} (h : ∀ c ∈ text, Plain c) : exponentTail text = none := by
  cases text with
  | nil =>
      rfl
  | cons c rest =>
      have hne := ne_e_of_plain (h c (by simp))
      unfold exponentTail
      split
      · rename_i heq
        exact absurd (List.cons.inj heq).1 hne.1
      · rename_i heq
        exact absurd (List.cons.inj heq).1 hne.2
      · rfl

theorem mem_of_mem_signGroup {text : Text} {c : Char} (h : c ∈ (signGroup text).2) : c ∈ text := by
  unfold signGroup at h
  split at h
  · exact List.mem_cons_of_mem _ h
  · exact h

/-- Without an exponent the text stays as it is. -/
theorem expandExponent_of_plain {text : Text} (h : ∀ c ∈ text, Plain c) :
    expandExponent text = .ok text := by
  have hnone : exponentPattern text = none := by
    have htail : ∀ c ∈ (signGroup text).2.dropWhile isDecDigit, Plain c := fun c hc =>
      h c (mem_of_mem_signGroup ((List.dropWhile_sublist _).subset hc))
    simp only [exponentPattern]
    split
    · rfl
    · split
      · rename_i after heq
        have hafter : ∀ c ∈ after.dropWhile isDecDigit, Plain c := fun c hc =>
          htail c (by rw [heq]; exact List.mem_cons_of_mem _ ((List.dropWhile_sublist _).subset hc))
        split
        · rfl
        · simp [exponentTail_eq_none hafter]
      · simp [exponentTail_eq_none htail]
  simp [expandExponent, hnone]

/-! ## Reading a decimal text -/

/-- A non-empty text of decimal digits. -/
structure Digits (s : Text) : Prop where
  ne_nil : s ≠ []
  digits : ∀ c ∈ s, isDecDigit c = true

theorem Digits.all {s : Text} (h : Digits s) : s.all isDecDigit = true :=
  List.all_eq_true.2 h.digits

theorem digits_toDigits (n : Nat) : Digits (Nat.toDigits 10 n) where
  ne_nil := Nat.toDigits_ne_nil
  digits := fun _ hc => isDecDigit_iff.2 (mem_decDigits_of_mem_toDigits hc)

theorem takeWhile_digits {whole rest : Text} (h : ∀ c ∈ whole, isDecDigit c = true)
    (hrest : ∀ c ∈ rest.head?, isDecDigit c = false) :
    (whole ++ rest).takeWhile isDecDigit = whole ∧ (whole ++ rest).dropWhile isDecDigit = rest := by
  have hstop : rest.takeWhile isDecDigit = [] ∧ rest.dropWhile isDecDigit = rest := by
    cases rest with
    | nil =>
        exact ⟨rfl, rfl⟩
    | cons c rest =>
        have hc : isDecDigit c = false := hrest c (by simp)
        simp [hc]
  rw [List.takeWhile_append_of_pos h, List.dropWhile_append_of_pos h, hstop.1, hstop.2]
  simp

theorem signGroup_minus {sign : Bool} {rest : Text} (h : Digits rest) (after : Text) :
    signGroup (minus sign ++ (rest ++ after)) = (sign, rest ++ after) := by
  cases sign with
  | true =>
      rfl
  | false =>
      -- a text of digits does not start with a minus
      cases rest with
      | nil =>
          exact absurd rfl h.ne_nil
      | cons c rest =>
          have hc : c ≠ '-' := by
            rintro rfl
            exact absurd (h.digits '-' (by simp)) (by decide)
          simp only [minus, Bool.false_eq_true, if_false, List.nil_append, List.cons_append]
          unfold signGroup
          split
          · rename_i heq
            exact absurd (List.cons.inj heq).1 hc
          · rfl

theorem decimalPattern_eq {sign : Bool} {whole fraction : Text} (hwhole : Digits whole)
    (hfraction : ∀ c ∈ fraction, isDecDigit c = true) :
    decimalPattern (minus sign ++ (whole ++ dotted fraction)) = some (sign, whole, fraction) := by
  have hhead : ∀ c ∈ (dotted fraction).head?, isDecDigit c = false := by
    intro c hc
    by_cases hnil : fraction = []
    · simp [dotted, hnil] at hc
    · have hdot : c = '.' := by simpa [dotted, hnil, eq_comm] using hc
      rw [hdot]
      decide
  rcases takeWhile_digits hwhole.digits hhead with ⟨htake, hdrop⟩
  simp only [decimalPattern, signGroup_minus hwhole, htake, hdrop, if_neg hwhole.ne_nil]
  by_cases hnil : fraction = []
  · simp [dotted, hnil]
  · have hall : fraction.all isDecDigit = true := List.all_eq_true.2 hfraction
    simp [dotted, hnil, hall]

theorem plain_decimal (sign : Bool) {whole fraction : Text} (hwhole : Digits whole)
    (hfraction : ∀ c ∈ fraction, isDecDigit c = true) :
    ∀ c ∈ minus sign ++ (whole ++ dotted fraction), Plain c := by
  intro c hc
  rcases List.mem_append.1 hc with hminus | hc
  · have hdash : c = '-' := by
      cases sign with
      | true => simpa [minus] using hminus
      | false => simp [minus] at hminus
    exact Or.inr (Or.inl hdash)
  · rcases List.mem_append.1 hc with hdigit | hdotted
    · exact plain_of_isDecDigit (hwhole.digits c hdigit)
    · by_cases hnil : fraction = []
      · simp [dotted, hnil] at hdotted
      · have hcases : c = '.' ∨ c ∈ fraction := by simpa [dotted, hnil] using hdotted
        rcases hcases with hdot | hdigit
        · exact Or.inr (Or.inr hdot)
        · exact plain_of_isDecDigit (hfraction c hdigit)

/-- What a decimal text with at most 18 significant decimals is read as. -/
theorem amountFrom_decimal {sign : Bool} {whole fraction : Text} (hwhole : Digits whole)
    (hfraction : ∀ c ∈ fraction, isDecDigit c = true)
    (hlength : (stripTrailingZeros fraction).length ≤ decimals) :
    amountFrom (minus sign ++ (whole ++ dotted fraction)) =
      .ok ⟨if sign then -(value 10 whole * scale +
              value 10 (padEnd decimals '0' (stripTrailingZeros fraction)) : Int)
            else value 10 whole * scale +
              value 10 (padEnd decimals '0' (stripTrailingZeros fraction))⟩ := by
  -- neither trimming nor an exponent changes a plain decimal
  have hplain := plain_decimal sign hwhole hfraction
  have htrim := trim_eq_self (fun c hc => isWhiteSpace_of_plain (hplain c hc))
  simp only [amountFrom, htrim, expandExponent_of_plain hplain, ok_bind,
    decimalPattern_eq hwhole hfraction, require_of hlength]
  rfl

/-! ## Round trips -/

/-- A text ends with the zeros that are stripped from it. -/
theorem stripTrailingZeros_append (s : Text) :
    ∃ n, s = stripTrailingZeros s ++ List.replicate n '0' := by
  have hzeros : s.rtakeWhile (· == '0') = List.replicate (s.rtakeWhile (· == '0')).length '0' := by
    refine List.eq_replicate_of_mem ?_
    intro c hc
    simpa using List.mem_rtakeWhile_imp hc
  refine ⟨(s.rtakeWhile (· == '0')).length, ?_⟩
  rw [← hzeros, stripTrailingZeros, List.rdropWhile, List.rtakeWhile, ← List.reverse_append,
    List.takeWhile_append_dropWhile, List.reverse_reverse]

theorem mem_of_mem_stripTrailingZeros {s : Text} {c : Char} (h : c ∈ stripTrailingZeros s) :
    c ∈ s := by
  rcases stripTrailingZeros_append s with ⟨n, hn⟩
  rw [hn]
  exact List.mem_append_left _ h

/-- Padding to a width gives back the zeros that were stripped. -/
theorem padEnd_stripTrailingZeros {width : Nat} {s : Text} (h : s.length ≤ width) :
    padEnd width '0' (stripTrailingZeros s) = padEnd width '0' s := by
  -- the `n` zeros that were stripped are among those that are filled in
  rcases stripTrailingZeros_append s with ⟨n, hn⟩
  have hlen : s.length = (stripTrailingZeros s).length + n := by
    simpa using congrArg List.length hn
  have hfill : width - (stripTrailingZeros s).length = n + (width - s.length) := by omega
  calc
    padEnd width '0' (stripTrailingZeros s)
        = stripTrailingZeros s ++ (List.replicate n '0' ++ List.replicate (width - s.length) '0') := by
          rw [padEnd, hfill, List.replicate_add]
    _ = padEnd width '0' s := by
          rw [← List.append_assoc, ← hn, padEnd]

theorem length_stripTrailingZeros_le (s : Text) : (stripTrailingZeros s).length ≤ s.length := by
  rcases stripTrailingZeros_append s with ⟨n, hn⟩
  have hlen : s.length = (stripTrailingZeros s).length + n := by
    simpa using congrArg List.length hn
  omega

namespace Amount

/-- The 18 decimals of an amount. -/
def fractionDigits (a : Amount) : Text :=
  padStart decimals '0' (Nat.toDigits 10 (a.wei.natAbs % scale))

theorem length_fractionDigits (a : Amount) : a.fractionDigits.length = decimals :=
  length_padStart_toDigits (by decide) (by decide) (Nat.mod_lt _ (by decide))

theorem value_fractionDigits (a : Amount) : value 10 a.fractionDigits = a.wei.natAbs % scale := by
  rw [fractionDigits, value_padStart]
  exact value_toDigits (by decide) (by decide) _

theorem isDecDigit_fractionDigits (a : Amount) : ∀ c ∈ a.fractionDigits, isDecDigit c = true := by
  intro c hc
  rcases mem_padStart hc with rfl | hc
  · decide
  · exact isDecDigit_iff.2 (mem_decDigits_of_mem_toDigits hc)

/-- Any text with the whole part of the amount, and with a fraction that differs from its 18
decimals by trailing zeros only, is read as the amount. -/
theorem amountFrom_text (a : Amount) {fraction : Text}
    (hfraction : ∀ c ∈ fraction, isDecDigit c = true) (hlength : fraction.length ≤ decimals)
    (hpad : padEnd decimals '0' fraction = a.fractionDigits) :
    amountFrom (minus (decide (a.wei < 0)) ++
      (Nat.toDigits 10 (a.wei.natAbs / scale) ++ dotted fraction)) = .ok a := by
  have hstrip : (stripTrailingZeros fraction).length ≤ decimals :=
    (length_stripTrailingZeros_le fraction).trans hlength
  have hvalue : value 10 (padEnd decimals '0' (stripTrailingZeros fraction)) =
      a.wei.natAbs % scale := by
    rw [padEnd_stripTrailingZeros hlength, hpad, value_fractionDigits]
  have hwhole : value 10 (Nat.toDigits 10 (a.wei.natAbs / scale)) = a.wei.natAbs / scale :=
    value_toDigits (by decide) (by decide) _
  have hsum : ((a.wei.natAbs / scale : Nat) : Int) * (scale : Nat) + (a.wei.natAbs % scale : Nat) =
      a.wei.natAbs := by
    exact_mod_cast Nat.div_add_mod' a.wei.natAbs scale
  rw [amountFrom_decimal (digits_toDigits _) hfraction hstrip, hvalue, hwhole, hsum]
  -- the sign was taken off before printing and is put back here
  by_cases hneg : a.wei < 0
  · have habs : -(a.wei.natAbs : Int) = a.wei := by omega
    simp only [hneg, decide_true, if_true, habs]
  · have habs : (a.wei.natAbs : Int) = a.wei := by omega
    simp only [hneg, decide_false, Bool.false_eq_true, if_false, habs]

theorem amountFrom_toFixed (a : Amount) : amountFrom a.toFixed = .ok a := by
  have hne : a.fractionDigits ≠ [] := by
    intro hnil
    have hlen := congrArg List.length hnil
    rw [length_fractionDigits] at hlen
    exact absurd hlen (by decide)
  have htext : a.toFixed = minus (decide (a.wei < 0)) ++
      (Nat.toDigits 10 (a.wei.natAbs / scale) ++ dotted a.fractionDigits) := by
    simp only [toFixed, dotted, if_neg hne, List.append_assoc]
    rfl
  rw [htext]
  exact amountFrom_text a (isDecDigit_fractionDigits a) (length_fractionDigits a).le
    (padEnd_eq_self (length_fractionDigits a).ge)

theorem padEnd_strip_fractionDigits (a : Amount) :
    padEnd decimals '0' (stripTrailingZeros a.fractionDigits) = a.fractionDigits := by
  rw [padEnd_stripTrailingZeros (length_fractionDigits a).le,
    padEnd_eq_self (length_fractionDigits a).ge]

theorem toPlain_eq (a : Amount) : a.toPlain = minus (decide (a.wei < 0)) ++
    (Nat.toDigits 10 (a.wei.natAbs / scale) ++ dotted (stripTrailingZeros a.fractionDigits)) := by
  simp only [toPlain, fractionDigits, List.append_assoc]

theorem isDecDigit_strip_fractionDigits (a : Amount) :
    ∀ c ∈ stripTrailingZeros a.fractionDigits, isDecDigit c = true :=
  fun c hc => isDecDigit_fractionDigits a c (mem_of_mem_stripTrailingZeros hc)

theorem amountFrom_toPlain (a : Amount) : amountFrom a.toPlain = .ok a := by
  rw [toPlain_eq]
  exact amountFrom_text a (isDecDigit_strip_fractionDigits a)
    ((length_stripTrailingZeros_le _).trans (length_fractionDigits a).le)
    (padEnd_strip_fractionDigits a)

/-- `toString` adds `.0` exactly to the amounts without decimals. -/
theorem toString_eq (a : Amount) : a.toString = minus (decide (a.wei < 0)) ++
    (Nat.toDigits 10 (a.wei.natAbs / scale) ++
      dotted (if stripTrailingZeros a.fractionDigits = [] then ['0']
        else stripTrailingZeros a.fractionDigits)) := by
  by_cases hnil : stripTrailingZeros a.fractionDigits = []
  · have hplain : a.toPlain = minus (decide (a.wei < 0)) ++
        Nat.toDigits 10 (a.wei.natAbs / scale) := by
      rw [toPlain_eq, hnil]
      simp [dotted]
    -- only minus and digits are left
    have hdot : '.' ∉ a.toPlain := by
      rw [hplain]
      intro hmem
      rcases List.mem_append.1 hmem with hminus | hdigit
      · revert hminus
        cases decide (a.wei < 0) with
        | true => decide
        | false => decide
      · exact absurd (mem_decDigits_of_mem_toDigits hdigit) (by decide)
    rw [Amount.toString, if_neg hdot, hplain, if_pos hnil]
    simp [dotted]
  · have hdot : '.' ∈ a.toPlain := by
      rw [toPlain_eq]
      simp [dotted, hnil]
    rw [Amount.toString, if_pos hdot, toPlain_eq, if_neg hnil]

theorem amountFrom_toString (a : Amount) : amountFrom a.toString = .ok a := by
  rw [toString_eq]
  by_cases hnil : stripTrailingZeros a.fractionDigits = []
  -- the `0` of `.0` is a fraction of its own, with the same value
  · rw [if_pos hnil]
    refine amountFrom_text a ?_ (by decide) ?_
    · intro c hc
      rw [List.mem_singleton.1 hc]
      decide
    · rw [← padEnd_strip_fractionDigits a, hnil]
      rfl
  · rw [if_neg hnil]
    exact amountFrom_text a (isDecDigit_strip_fractionDigits a)
      ((length_stripTrailingZeros_le _).trans (length_fractionDigits a).le)
      (padEnd_strip_fractionDigits a)

end Amount

end Money
end PaymentRail
