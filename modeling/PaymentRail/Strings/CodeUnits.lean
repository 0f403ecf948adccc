import PaymentRail.Strings.Numeral

/-!
# CodeUnits — lengths of strings

The language counts a string in code units of UTF-16: a character beyond the basic plane has two.
`codeUnits` is `s.length` and `slicePrefix` is `s.slice(0, n)`.
-/

namespace PaymentRail
namespace Strings

def unitsOf (c : Char) : Nat := if c.toNat < 0x10000 then 1 else 2

/-- The length of a string in code units. -/
def codeUnits (s : Text) : Nat := (s.map unitsOf).sum

/-- `s.slice(0, n)`.  Half of a pair is written as a replacement character. -/
def slicePrefix : Nat → Text → Text
  | _, [] => []
  | 0, _ => []
  | n + 1, c :: rest =>
      if unitsOf c ≤ n + 1 then c :: slicePrefix (n + 1 - unitsOf c) rest else ['\uFFFD']

example : slicePrefix 2 ['a', '😀', 'b'] = ['a', '\uFFFD'] := by decide

end Strings
end PaymentRail
