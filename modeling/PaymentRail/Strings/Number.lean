import Mathlib.Algebra.Order.Ring.Rat
import Mathlib.Data.List.DropRight
import PaymentRail.Strings.BigInt

/-!
# Number — conversion to a `number`

The function `Number()` of the language on strings, by the `StringNumericLiteral` grammar: white space
around the literal is ignored, the empty literal is zero, a decimal literal may carry a sign, a fraction
and an exponent, and a binary, octal or hexadecimal one none of them.  Any other text is `NaN`.

`stringToNumber` is the exact value of a text.  `Double.rounded` is the `number` next to it, which the
language has in its place.

Of `Math` there are the functions that the source applies to such numbers.
-/

namespace PaymentRail
namespace Strings

/-! ## Literals -/

/-- `ExponentPart`, or nothing. -/
def exponentPart : Text → Option Int
  | [] => some 0
  | e :: rest =>
      if e = 'e' ∨ e = 'E' then
        match rest with
        | '-' :: digits => (parseDigits 10 digits).map fun n => -(n : Int)
        | '+' :: digits => (parseDigits 10 digits).map fun n => (n : Int)
        | digits => (parseDigits 10 digits).map fun n => (n : Int)
      else none

/-- The digits behind a decimal point, and what follows them. -/
def fractionPart : Text → Text × Text
  | '.' :: rest => (rest.takeWhile isDecDigit, rest.dropWhile isDecDigit)
  | rest => ([], rest)

/-- `StrUnsignedDecimalLiteral` -/
def unsignedDecimal (s : Text) : Double :=
  if s = "Infinity".toList then .infinity false
  else
    let whole := s.takeWhile isDecDigit
    let (fraction, rest) := fractionPart (s.dropWhile isDecDigit)
    match exponentPart rest with
    | some exponent =>
        if whole ++ fraction = [] then .nan
        else .finite (value 10 (whole ++ fraction) * (10 : Rat) ^ (exponent - fraction.length))
    | none => .nan

/-- `NonDecimalIntegerLiteral` behind its first two characters. -/
def nonDecimal (b : Nat) (digits : Text) : Double :=
  match parseDigits b digits with
  | some n => .finite n
  | none => .nan

namespace Double

def neg : Double → Double
  | .finite q => .finite (-q)
  | .infinity negative => .infinity (!negative)
  | .nan => .nan

end Double

/-- `Number(s)`, as an exact value. -/
def stringToNumber (s : Text) : Double :=
  match trim s with
  | [] => .finite 0
  | '-' :: rest => (unsignedDecimal rest).neg
  | '+' :: rest => unsignedDecimal rest
  | '0' :: 'b' :: digits | '0' :: 'B' :: digits => nonDecimal 2 digits
  | '0' :: 'o' :: digits | '0' :: 'O' :: digits => nonDecimal 8 digits
  | '0' :: 'x' :: digits | '0' :: 'X' :: digits => nonDecimal 16 digits
  | rest => unsignedDecimal rest

/-! ## Arithmetic -/

namespace Double

/-- Infinities and `NaN` stay what they are. -/
def onFinite (f : Rat → Rat) : Double → Double
  | .finite q => .finite (f q)
  | x => x

/-- `Math.floor(x)` -/
def floor : Double → Double := onFinite fun q => (q.floor : Rat)

/-- `Math.round(x)`: halves are rounded up. -/
def round : Double → Double := onFinite fun q => ((q + 1 / 2).floor : Rat)

/-- `x * 1e9`, not rounded and without overflow. -/
def timesBillion : Double → Double := onFinite fun q => q * 10 ^ 9

/-- `Math.max(x, 1)` -/
def maxOne : Double → Double
  | .finite q => .finite (max q 1)
  | .infinity true => .finite 1
  | .infinity false => .infinity false
  | .nan => .nan

def isFinite : Double → Bool
  | .finite _ => true
  | _ => false

/-- `Number.isInteger(x)` -/
def isInteger : Double → Bool
  | .finite q => q.den = 1
  | _ => false

/-- `x >= bound` -/
def ge (x : Double) (bound : Rat) : Bool :=
  match x with
  | .finite q => bound ≤ q
  | .infinity negative => !negative
  | .nan => false

/-- `x > bound` -/
def gt (x : Double) (bound : Rat) : Bool :=
  match x with
  | .finite q => bound < q
  | .infinity negative => !negative
  | .nan => false

/-! Of the values of a `number` there are finitely many: a text stands for the one next to its value. -/

/-- The greatest power of two that is not above `q`, for a positive `q`. -/
def binaryExponent (q : Rat) : Int :=
  let estimate : Int := Nat.log2 q.num.natAbs - Nat.log2 q.den
  if (2 : Rat) ^ estimate ≤ q then estimate else estimate - 1

/-- The integer next to `q`, the even one of two. -/
def roundToEven (q : Rat) : Int :=
  if q - q.floor < 1 / 2 then q.floor
  else if 1 / 2 < q - q.floor then q.floor + 1
  else if q.floor % 2 = 0 then q.floor else q.floor + 1

/-- The number next to `q` with 53 binary digits, fewer of them below `2 ^ (-1022)`. -/
def nearest (q : Rat) : Double :=
  let lastPlace := max (binaryExponent |q| - 52) (-1074)
  let rounded : Rat := roundToEven (q / 2 ^ lastPlace) * 2 ^ lastPlace
  if 2 ^ 1024 ≤ |rounded| then .infinity (q < 0) else .finite rounded

def rounded : Double → Double
  | .finite q => nearest q
  | x => x

theorem roundToEven_int (n : Int) : roundToEven n = n := by
  have hfloor : (n : Rat).floor = n := Rat.floor_intCast n
  have hhalf : (n : Rat) - (n : Rat).floor < 1 / 2 := by
    rw [hfloor, sub_self]
    norm_num
  rw [roundToEven, if_pos hhalf, hfloor]

theorem binaryExponent_natCast {n : Nat} (h : n ≠ 0) : binaryExponent n = Nat.log2 n := by
  have hle : ((2 : Rat) ^ (Nat.log2 n : Int)) ≤ n := by
    rw [zpow_natCast]
    exact_mod_cast Nat.log2_self_le h
  have hestimate : ((Nat.log2 (n : Rat).num.natAbs : Nat) : Int) - (Nat.log2 (n : Rat).den : Nat) =
      Nat.log2 n := by
    rw [Rat.num_natCast, Rat.den_natCast, Int.natAbs_natCast]
    exact sub_zero _
  rw [binaryExponent]
  simp only [hestimate]
  exact if_pos hle

/-- Integers of 53 binary digits are kept. -/
theorem nearest_natCast {n : Nat} (h : n < 2 ^ 53) : nearest n = .finite n := by
  rcases Nat.eq_zero_or_pos n with rfl | hpos
  · decide +kernel
  · have hlog : Nat.log2 n < 53 := (Nat.log2_lt (Nat.pos_iff_ne_zero.1 hpos)).2 h
    have hplace : max (binaryExponent |(n : Rat)| - 52) (-1074) = -((52 - Nat.log2 n : Nat) : Int) := by
      rw [Nat.abs_cast, binaryExponent_natCast (Nat.pos_iff_ne_zero.1 hpos)]
      omega
    -- with so many places behind the point it is an integer
    have hscaled : (n : Rat) / 2 ^ (-((52 - Nat.log2 n : Nat) : Int)) =
        ((n * 2 ^ (52 - Nat.log2 n) : Nat) : Int) := by
      rw [zpow_neg, div_inv_eq_mul, zpow_natCast]
      push_cast
      rfl
    have hback : (((n * 2 ^ (52 - Nat.log2 n) : Nat) : Int) : Rat) *
        2 ^ (-((52 - Nat.log2 n : Nat) : Int)) = n := by
      rw [← hscaled]
      exact div_mul_cancel₀ _ (zpow_ne_zero _ (by norm_num))
    have hsmall : ¬ (2 : Rat) ^ 1024 ≤ |(n : Rat)| := by
      rw [Nat.abs_cast, not_le]
      have hlt : (n : Rat) < 2 ^ 53 := by exact_mod_cast h
      exact lt_of_lt_of_le hlt (pow_le_pow_right₀ one_le_two (by decide))
    simp only [nearest, hplace, hscaled, roundToEven_int, hback]
    exact if_neg hsmall

example : nearest (10 ^ 16 + 1) = .finite (10 ^ 16) := by decide +kernel

end Double

/-! ## White space around a literal -/

/-- `trim` is `dropWhile` from both ends. -/
theorem trim_eq_rdropWhile (s : Text) :
    trim s = (s.dropWhile isWhiteSpace).rdropWhile isWhiteSpace := rfl

theorem trim_head {s rest : Text} {c : Char} (h : trim s = c :: rest) : isWhiteSpace c = false := by
  have hprefix : trim s <+: s.dropWhile isWhiteSpace := List.rdropWhile_prefix _ _
  rcases hprefix with ⟨more, hmore⟩
  have hhead := List.head?_dropWhile_not isWhiteSpace s
  rwa [← hmore, h] at hhead

theorem trim_trim (s : Text) : trim (trim s) = trim s := by
  have hdrop : (trim s).dropWhile isWhiteSpace = trim s := by
    cases htext : trim s with
    | nil => rfl
    | cons c rest => simp [trim_head htext]
  rw [trim_eq_rdropWhile (trim s), hdrop, trim_eq_rdropWhile s, List.rdropWhile_idempotent]

theorem exists_trim (s : Text) : ∃ a b, s = a ++ (trim s ++ b) ∧ (∀ c ∈ a, isWhiteSpace c = true) ∧
    ∀ c ∈ b, isWhiteSpace c = true := by
  have hfront := List.takeWhile_append_dropWhile (p := isWhiteSpace) (l := s)
  have hback := List.rdropWhile_append_rtakeWhile (p := isWhiteSpace) (l := s.dropWhile isWhiteSpace)
  refine ⟨s.takeWhile isWhiteSpace, (s.dropWhile isWhiteSpace).rtakeWhile isWhiteSpace, ?_,
    fun c hc => List.mem_takeWhile_imp hc, fun c hc => List.mem_rtakeWhile_imp hc⟩
  rw [trim_eq_rdropWhile, hback, hfront]

theorem trim_within (s : Text) : trim s <:+: s := by
  rcases exists_trim s with ⟨a, b, h, _⟩
  refine ⟨a, b, ?_⟩
  rw [List.append_assoc]
  exact h.symm

/-- What has a lower case is that, or a capital letter. -/
theorem eq_or_capital {c d : Char} (h : c.toLower = d) :
    c = d ∨ 65 ≤ c.toNat ∧ c.toNat ≤ 90 ∧ c.toNat + 32 = d.toNat := by
  unfold Char.toLower at h
  split at h
  · rename_i hcapital
    have hlow : 65 ≤ c.val.toNat := hcapital.1
    have hhigh : c.val.toNat ≤ 90 := hcapital.2
    have hsum : (c.val + ('a'.val - 'A'.val)).toNat = d.val.toNat := congrArg Char.toNat h
    rw [UInt32.toNat_add, show ('a'.val - 'A'.val).toNat = 32 from by decide] at hsum
    refine Or.inr ⟨hlow, hhigh, ?_⟩
    show c.val.toNat + 32 = d.val.toNat
    omega
  · exact Or.inl h

/-- White space has no letter case. -/
theorem toLower_of_isWhiteSpace {c : Char} (h : isWhiteSpace c = true) : c.toLower = c := by
  rcases eq_or_capital (c := c) rfl with heq | ⟨hlow, hhigh, _⟩
  · exact heq.symm
  · have hmem : c.toNat ∈ whiteSpace := List.contains_iff_mem.1 h
    have hother : ∀ n ∈ whiteSpace, n < 65 ∨ 90 < n := by decide
    have hrange := hother _ hmem
    omega

theorem not_space_of_toLower {c d : Char} (h : c.toLower = d) (hd : isWhiteSpace d = false) :
    isWhiteSpace c = false := by
  by_contra hspace
  rw [Bool.not_eq_false] at hspace
  rw [toLower_of_isWhiteSpace hspace] at h
  rw [h, hd] at hspace
  exact Bool.false_ne_true hspace

/-- `Number` ignores what `trim` takes away. -/
theorem unsignedDecimal_digits {s : Text} (hne : s ≠ []) (h : ∀ c ∈ s, isDecDigit c = true) :
    unsignedDecimal s = .finite (value 10 s) := by
  have htake : s.takeWhile isDecDigit = s := List.takeWhile_eq_self_iff.2 h
  have hdrop : s.dropWhile isDecDigit = [] := List.dropWhile_eq_nil_iff.2 h
  have hword : s ≠ "Infinity".toList := by
    intro heq
    have hmem : 'I' ∈ s := by
      rw [heq]
      decide
    exact absurd (h 'I' hmem) (by decide)
  rw [unsignedDecimal, if_neg hword, htake, hdrop]
  simp only [fractionPart, List.append_nil, exponentPart, if_neg hne]
  simp

/-- A text of digits is the number that they write. -/
theorem stringToNumber_digits {s : Text} (hne : s ≠ []) (h : ∀ c ∈ s, isDecDigit c = true) :
    stringToNumber s = .finite (value 10 s) := by
  have hdigit : ∀ c ∈ s, isWhiteSpace c = false := fun c hc =>
    forall_mem_decDigits (P := fun c => isWhiteSpace c = false) (by decide) (isDecDigit_iff.1 (h c hc))
  have hnot : ∀ c, isDecDigit c = false → c ∉ s := by
    intro c hc hmem
    rw [h c hmem] at hc
    cases hc
  rw [stringToNumber, trim_eq_self hdigit]
  split
  · exact absurd rfl hne
  · exact absurd List.mem_cons_self (hnot '-' (by decide))
  · exact absurd List.mem_cons_self (hnot '+' (by decide))
  · exact absurd (List.mem_cons_of_mem _ List.mem_cons_self) (hnot 'b' (by decide))
  · exact absurd (List.mem_cons_of_mem _ List.mem_cons_self) (hnot 'B' (by decide))
  · exact absurd (List.mem_cons_of_mem _ List.mem_cons_self) (hnot 'o' (by decide))
  · exact absurd (List.mem_cons_of_mem _ List.mem_cons_self) (hnot 'O' (by decide))
  · exact absurd (List.mem_cons_of_mem _ List.mem_cons_self) (hnot 'x' (by decide))
  · exact absurd (List.mem_cons_of_mem _ List.mem_cons_self) (hnot 'X' (by decide))
  · exact unsignedDecimal_digits hne h

theorem stringToNumber_trim (s : Text) : stringToNumber (trim s) = stringToNumber s := by
  simp only [stringToNumber, trim_trim]

end Strings
end PaymentRail
