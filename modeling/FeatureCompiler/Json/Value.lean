import FeatureCompiler.Decimal.Layout

/-!
JSON values. Whole numbers that fit 64 bits are kept exactly, all others as floating-point
magnitudes with a sign. Members of an object stand in the order in which they were written, with
repeated keys kept.
-/

namespace FeatureCompiler.Json

inductive Number where
  | natural (n : Nat)
  /-- The number `-n` for a positive `n`. -/
  | negative (n : Nat)
  | float (isNegative : Bool) (magnitude : Decimal.Binary64)
deriving Repr, DecidableEq

inductive Value where
  | null
  | bool (b : Bool)
  | number (n : Number)
  | string (s : String)
  | array (items : List Value)
  | object (members : List (String × Value))
deriving Repr

end FeatureCompiler.Json
