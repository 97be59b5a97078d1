import FeatureCompiler.Decimal.Binary64

/-!
The shortest decimal that reads back as a given magnitude, and of the shortest ones the nearest.
The decimals that read back form an interval around the magnitude, so on the grid of decimals with
a given number of digits only the two neighbours of the magnitude have to be tried.
-/

namespace FeatureCompiler.Decimal

/-- The number `digits * 10 ^ exponent`. -/
structure Scientific where
  digits : Nat
  exponent : Int
deriving Repr, DecidableEq

namespace Binary64

/-- Compares the decimal `digits * 10 ^ exponent` with `bound / 4` units of the last mantissa bit
of `x`. -/
def compareBound (x : Binary64) (bound : Nat) (decimal : Scientific) : Ordering :=
  let (num, den) := quotient ⟨bound, x.exponent - 2⟩
  match decimal.exponent with
  | .ofNat k => compare (decimal.digits * Nat.pow 10 k * den) num
  | .negSucc k => compare (decimal.digits * den) (num * Nat.pow 10 (k + 1))

/-- The lower end of the decimals that read back, in quarters of the last mantissa bit. Below a
power of two the magnitudes stand half as far apart. -/
def lowerBound (x : Binary64) : Nat :=
  4 * x.mantissa - if x.mantissa = Nat.pow 2 52 ∧ leastExponent < x.exponent then 1 else 2

def upperBound (x : Binary64) : Nat :=
  4 * x.mantissa + 2

/-- Whether a decimal reads back as `x`. The ends of the interval do when the mantissa is even. -/
def readsBack (x : Binary64) (decimal : Scientific) : Bool :=
  let low := x.compareBound x.lowerBound decimal
  let high := x.compareBound x.upperBound decimal
  if x.mantissa % 2 = 0 then low.isGE && high.isLE else low.isGT && high.isLT

/-- The exponent of the leading decimal digit of a positive magnitude. -/
def leadingDigit (x : Binary64) : Int :=
  let (num, den) := x.quotient
  (Nat.toDigits 10 (num * Nat.pow 10 400 / den)).length - 401

/-- The better of the two neighbours of `x` among the decimals with this many digits, if one of
them reads back. -/
def neighbour? (x : Binary64) (count : Nat) : Option Scientific :=
  let exponent := x.leadingDigit - (count - 1 : Nat)
  let (num, den) := x.quotient
  let (num, den) := match exponent with
    | .ofNat k => (num, den * Nat.pow 10 k)
    | .negSucc k => (num * Nat.pow 10 (k + 1), den)
  let below : Scientific := ⟨num / den, exponent⟩
  let above : Scientific := ⟨num / den + 1, exponent⟩
  match x.readsBack below, x.readsBack above with
  | true, true => some ⟨roundDiv num den, exponent⟩
  | true, false => some below
  | false, true => some above
  | false, false => none

/-- Seventeen digits are enough for every magnitude. -/
def shortest? (x : Binary64) : Option Scientific :=
  (List.range' 1 17).findSome? x.neighbour?

end Binary64

end FeatureCompiler.Decimal
