import FeatureCompiler.Text.Alphabetic
import FeatureCompiler.Text.Numeric

/-!
Tables of code points compared with each other. Two tables have no character in common if no two of
their intervals meet. Long tables are compared as sets of bits, which takes one step for each of
their intervals.
-/

namespace FeatureCompiler.Text

theorem not_inRanges_of_disjoint {first second : List (Nat × Nat)}
    (hdisjoint : ∀ range ∈ first, ∀ other ∈ second, range.2 < other.1 ∨ other.2 < range.1)
    {c : Char} (hfirst : inRanges first c = true) : inRanges second c = false := by
  simp only [inRanges, List.any_eq_true, Bool.and_eq_true, decide_eq_true_eq] at hfirst
  obtain ⟨range, hrange, hlower, hupper⟩ := hfirst
  simp only [inRanges, List.any_eq_false, Bool.and_eq_true, decide_eq_true_eq, not_and]
  intro other hother _
  have := hdisjoint range hrange other hother
  omega

theorem inRanges_of_le {ranges : List (Nat × Nat)} {first last : Nat}
    (hmember : (first, last) ∈ ranges) {c : Char} (hfirst : first ≤ c.toNat)
    (hlast : c.toNat ≤ last) : inRanges ranges c = true := by
  rw [inRanges, List.any_eq_true]
  exact ⟨(first, last), hmember, by simp [hfirst, hlast]⟩

theorem le_of_inRanges {ranges : List (Nat × Nat)} {bound : Nat}
    (hranges : ∀ range ∈ ranges, bound ≤ range.1) {c : Char} (h : inRanges ranges c = true) :
    bound ≤ c.toNat := by
  rw [inRanges, List.any_eq_true] at h
  obtain ⟨range, hrange, hbounds⟩ := h
  rw [Bool.and_eq_true, decide_eq_true_eq] at hbounds
  exact Nat.le_trans (hranges range hrange) hbounds.1

theorem inRanges_of_isAlphabetic {c : Char} (h : isAlphabetic c = true) :
    inRanges alphabeticRanges c = true := by
  unfold isAlphabetic at h
  split at h
  · rcases Bool.or_eq_true_iff.mp h with hcase | hcase
    · obtain ⟨hfirst, hlast⟩ := of_decide_eq_true hcase
      exact inRanges_of_le (by decide +kernel : (0x41, 0x5a) ∈ alphabeticRanges)
        (UInt32.le_iff_toNat_le.mp hfirst) (UInt32.le_iff_toNat_le.mp hlast)
    · obtain ⟨hfirst, hlast⟩ := Bool.and_eq_true_iff.mp hcase
      exact inRanges_of_le (by decide +kernel : (0x61, 0x7a) ∈ alphabeticRanges)
        (UInt32.le_iff_toNat_le.mp (of_decide_eq_true hfirst))
        (UInt32.le_iff_toNat_le.mp (of_decide_eq_true hlast))
  · exact h

theorem inRanges_of_isNumeric {c : Char} (h : isNumeric c = true) :
    inRanges numericRanges c = true := by
  unfold isNumeric at h
  split at h
  · obtain ⟨hfirst, hlast⟩ := Bool.and_eq_true_iff.mp h
    exact inRanges_of_le (by decide +kernel : (0x30, 0x39) ∈ numericRanges)
      (UInt32.le_iff_toNat_le.mp (of_decide_eq_true hfirst))
      (UInt32.le_iff_toNat_le.mp (of_decide_eq_true hlast))
  · exact h

/-- The set of the code points in a table, as the number that has these bits. -/
def bitmap (ranges : List (Nat × Nat)) : Nat :=
  ranges.foldr (fun range rest => ((1 <<< (range.2 + 1 - range.1) - 1) <<< range.1) ||| rest) 0

theorem testBit_interval (first last n : Nat) :
    ((1 <<< (last + 1 - first) - 1) <<< first).testBit n =
      (decide (first ≤ n) && decide (n ≤ last)) := by
  rw [Nat.testBit_shiftLeft, Nat.one_shiftLeft, Nat.testBit_two_pow_sub_one, Bool.eq_iff_iff]
  simp only [Bool.and_eq_true, decide_eq_true_eq]
  omega

theorem testBit_bitmap (ranges : List (Nat × Nat)) (c : Char) :
    (bitmap ranges).testBit c.toNat = inRanges ranges c := by
  induction ranges with
  | nil => exact Nat.zero_testBit _
  | cons range ranges ih =>
      rw [bitmap, List.foldr_cons, Nat.testBit_or, testBit_interval, inRanges, List.any_cons]
      exact congrArg _ ih

theorem inRanges_of_subset {first second : List (Nat × Nat)}
    (hsubset : bitmap first &&& bitmap second = bitmap first) {c : Char}
    (h : inRanges first c = true) : inRanges second c = true := by
  rw [← testBit_bitmap, ← hsubset, Nat.testBit_and, Bool.and_eq_true, testBit_bitmap second] at h
  exact h.2

theorem not_inRanges_of_inter {first second : List (Nat × Nat)}
    (hinter : bitmap first &&& bitmap second = 0) {c : Char} (h : inRanges first c = true) :
    inRanges second c = false := by
  have hbit := congrArg (fun bits => bits.testBit c.toNat) hinter
  simpa [testBit_bitmap, h] using hbit

theorem inRanges_append {first second : List (Nat × Nat)} {c : Char} :
    inRanges (first ++ second) c = true ↔ inRanges first c = true ∨ inRanges second c = true := by
  simp [inRanges, List.any_append]

end FeatureCompiler.Text
