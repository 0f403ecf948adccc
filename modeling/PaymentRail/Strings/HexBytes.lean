import PaymentRail.Strings.Numeral

/-!
# HexBytes — byte strings written in lower-case hex

`HexBytes s` says that `s` is a whole number of bytes, two lower-case hex digits each.  Texts of
this shape are closed under concatenation, and printing numbers gives such texts.
-/

namespace PaymentRail
namespace Strings

/-- A whole number of bytes in lower-case hex. -/
structure HexBytes (s : Text) : Prop where
  even : s.length % 2 = 0
  digits : ∀ c ∈ s, c ∈ hexDigits
  lower : ∀ c ∈ s, c.toLower = c

namespace HexBytes

theorem nil : HexBytes [] where
  even := rfl
  digits := by
    intro c hc
    cases hc
  lower := by
    intro c hc
    cases hc

theorem append {s t : Text} (hs : HexBytes s) (ht : HexBytes t) : HexBytes (s ++ t) where
  even := by
    have hleft := hs.even
    have hright := ht.even
    rw [List.length_append]
    omega
  digits := by
    intro c hc
    rcases List.mem_append.1 hc with hc | hc
    · exact hs.digits c hc
    · exact ht.digits c hc
  lower := by
    intro c hc
    rcases List.mem_append.1 hc with hc | hc
    · exact hs.lower c hc
    · exact ht.lower c hc

theorem flatten {parts : List Text} (h : ∀ s ∈ parts, HexBytes s) : HexBytes parts.flatten := by
  induction parts with
  | nil =>
      exact nil
  | cons s parts ih =>
      have hhead : HexBytes s := h s (by simp)
      have htail : HexBytes parts.flatten := ih (fun t ht => h t (by simp [ht]))
      simpa using hhead.append htail

theorem toLowerCase_eq {s : Text} (h : HexBytes s) : toLowerCase s = s :=
  toLowerCase_eq_self h.lower

/-- A printed number, padded to an even width. -/
theorem padStart_toDigits {width n : Nat}
    (heven : (padStart width '0' (Nat.toDigits 16 n)).length % 2 = 0) :
    HexBytes (padStart width '0' (Nat.toDigits 16 n)) where
  even := heven
  digits := by
    intro c hc
    rcases mem_padStart hc with rfl | hc
    · decide
    · exact mem_hexDigits_of_mem_toDigits hc
  lower := by
    intro c hc
    rcases mem_padStart hc with rfl | hc
    · rfl
    · exact toLower_of_mem_toDigits hc

/-- The digits of a hex string in lower case. -/
theorem of_hexPattern {n : Nat} {s : Text} (heven : n % 2 = 0) (h : hexPattern n s = true) :
    HexBytes (toLowerCase (s.drop 2)) := by
  rcases hexPattern_iff.1 h with ⟨rest, rfl, hlen, hmem⟩
  refine ⟨by simpa [hlen] using heven, ?_, ?_⟩
  · intro c hc
    rcases List.mem_map.1 hc with ⟨d, hd, rfl⟩
    exact toLower_mem_hexDigits (hmem d hd)
  · intro c hc
    rcases List.mem_map.1 hc with ⟨d, hd, rfl⟩
    exact toLower_toLower_hexDigits (hmem d hd)

end HexBytes

/-- A hex string in lower case is its prefix followed by its digits. -/
theorem toLowerCase_of_hexPattern {n : Nat} {s : Text} (h : hexPattern n s = true) :
    toLowerCase s = '0' :: 'x' :: toLowerCase (s.drop 2) := by
  rcases hexPattern_iff.1 h with ⟨rest, rfl, _, _⟩
  rfl

theorem length_drop_of_hexPattern {n : Nat} {s : Text} (h : hexPattern n s = true) :
    (toLowerCase (s.drop 2)).length = n := by
  rcases hexPattern_iff.1 h with ⟨rest, rfl, hlen, _⟩
  simpa using hlen

end Strings
end PaymentRail
