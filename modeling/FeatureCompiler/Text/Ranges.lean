/-!
Sets of characters given by closed intervals of code points, the form in which the properties
of the Unicode character database are written down.
-/

namespace FeatureCompiler.Text

/-- Whether the code point of `c` lies in one of the closed intervals. -/
def inRanges (ranges : List (Nat × Nat)) (c : Char) : Bool :=
  ranges.any fun range => range.1 ≤ c.toNat && c.toNat ≤ range.2

end FeatureCompiler.Text
