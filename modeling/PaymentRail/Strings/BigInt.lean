import Mathlib.Data.Rat.Init
import Mathlib.Algebra.Order.Ring.Int
import PaymentRail.Strings.Numeral

/-!
# BigInt — conversion to an arbitrary-precision integer

The function `BigInt()` of the language, on the types the source passes to it.  A string is read
by the `StringIntegerLiteral` grammar: white space around the literal is ignored, the empty
literal is zero, a decimal literal may carry a sign and a binary, octal or hexadecimal one may not.
-/

namespace PaymentRail
namespace Strings

/-- A `number` of the language: finite values are rationals. -/
inductive Double where
  | finite (q : Rat)
  | infinity (negative : Bool)
  | nan
  deriving DecidableEq, Repr

/-- A value of type `bigint | string | number`. -/
inductive Numeric where
  | bigint (n : Int)
  | number (x : Double)
  | string (s : Text)
  deriving DecidableEq, Repr

/-- The code points of `WhiteSpace` and `LineTerminator`. -/
def whiteSpace : List Nat :=
  [0x09, 0x0a, 0x0b, 0x0c, 0x0d, 0x20, 0xa0, 0x1680, 0x2000, 0x2001, 0x2002, 0x2003, 0x2004,
    0x2005, 0x2006, 0x2007, 0x2008, 0x2009, 0x200a, 0x2028, 0x2029, 0x202f, 0x205f, 0x3000, 0xfeff]

def isWhiteSpace (c : Char) : Bool := whiteSpace.contains c.toNat

/-- `s.trim()` -/
def trim (s : Text) : Text :=
  ((s.dropWhile isWhiteSpace).reverse.dropWhile isWhiteSpace).reverse

theorem dropWhile_eq_self {p : Char → Bool} {s : Text} (h : ∀ c ∈ s, p c = false) :
    s.dropWhile p = s := by
  cases s with
  | nil =>
      rfl
  | cons c rest =>
      simp [h c (by simp)]

theorem trim_eq_self {s : Text} (h : ∀ c ∈ s, isWhiteSpace c = false) : trim s = s := by
  have hreverse : ∀ c ∈ s.reverse, isWhiteSpace c = false := by simpa using h
  rw [trim, dropWhile_eq_self h, dropWhile_eq_self hreverse, List.reverse_reverse]

def isDigitIn (b : Nat) (c : Char) : Bool := isHexDigit c && digitVal c < b

/-- One or more digits of base `b`. -/
def parseDigits (b : Nat) (digits : Text) : Option Nat :=
  if digits ≠ [] ∧ digits.all (isDigitIn b) = true then some (value b digits) else none

/-- `StringToBigInt` -/
def stringToBigInt (s : Text) : Option Int :=
  match trim s with
  | [] => some 0
  -- only a decimal literal may carry a sign
  | '-' :: digits => (parseDigits 10 digits).map fun n => -(n : Int)
  | '+' :: digits => (parseDigits 10 digits).map fun n => (n : Int)
  | '0' :: 'b' :: digits | '0' :: 'B' :: digits => (parseDigits 2 digits).map fun n => (n : Int)
  | '0' :: 'o' :: digits | '0' :: 'O' :: digits => (parseDigits 8 digits).map fun n => (n : Int)
  | '0' :: 'x' :: digits | '0' :: 'X' :: digits => (parseDigits 16 digits).map fun n => (n : Int)
  | digits => (parseDigits 10 digits).map fun n => (n : Int)

/-- `BigInt(v)`; a number must be integral. -/
def bigInt : Numeric → Except String Int
  | .bigint n => .ok n
  | .number (.finite q) =>
      if q.den = 1 then .ok q.num
      else .error "The number cannot be converted to a BigInt because it is not an integer"
  | .number _ =>
      .error "The number cannot be converted to a BigInt because it is not an integer"
  | .string s =>
      match stringToBigInt s with
      | some n => .ok n
      | none => .error ("Cannot convert " ++ String.ofList s ++ " to a BigInt")

/-- A hexadecimal literal is read as its digits. -/
theorem bigInt_hex {digits : Text} (hne : digits ≠ []) (h : ∀ c ∈ digits, c ∈ hexDigits) :
    bigInt (.string ('0' :: 'x' :: digits)) = .ok (value 16 digits : Int) := by
  have hspace : ∀ c ∈ '0' :: 'x' :: digits, isWhiteSpace c = false := by
    intro c hc
    rcases List.mem_cons.1 hc with rfl | hc
    · decide
    · rcases List.mem_cons.1 hc with rfl | hc
      · decide
      · refine forall_mem_hexDigits (P := fun c => isWhiteSpace c = false) ?_ (h c hc)
        simp only [hexDigits, List.Forall]
        decide
  have hdigits : digits.all (isDigitIn 16) = true := by
    refine List.all_eq_true.2 ?_
    intro c hc
    refine forall_mem_hexDigits (P := fun c => isDigitIn 16 c = true) ?_ (h c hc)
    simp only [hexDigits, List.Forall]
    decide
  have hparse : parseDigits 16 digits = some (value 16 digits) := if_pos ⟨hne, hdigits⟩
  simp [bigInt, stringToBigInt, trim_eq_self hspace, hparse]

end Strings
end PaymentRail
