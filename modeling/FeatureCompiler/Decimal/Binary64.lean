/-!
Finite binary floating-point magnitudes of 64 bits: a mantissa of at most 53 bits times a power of
two. Every operation rounds the exact quotient of two naturals to the nearest magnitude, a tie to
the even mantissa, and has no value where the result would be infinite.
-/

namespace FeatureCompiler.Decimal

/-- The number `mantissa * 2 ^ exponent`. -/
structure Binary64 where
  mantissa : Nat
  exponent : Int
deriving Repr, DecidableEq

namespace Binary64

/-- The exponent of the smallest positive magnitude. -/
def leastExponent : Int := -1074

/-- The exponent of the largest magnitude. -/
def greatestExponent : Int := 971

def zero : Binary64 := ⟨0, leastExponent⟩

def isZero (x : Binary64) : Bool :=
  x.mantissa = 0

/-- Quotient to the nearest natural, a tie to the even one. -/
def roundDiv (num den : Nat) : Nat :=
  let quotient := num / den
  match compare (2 * (num % den)) den with
  | .lt => quotient
  | .gt => quotient + 1
  | .eq => if quotient % 2 = 0 then quotient else quotient + 1

/-- Numerator and denominator of `num / den / 2 ^ exponent`. -/
def scaled (num den : Nat) (exponent : Int) : Nat × Nat :=
  match exponent with
  | .ofNat k => (num, den * Nat.pow 2 k)
  | .negSucc k => (num * Nat.pow 2 (k + 1), den)

/-- The exponent of the leading bit of a positive quotient. -/
def leadingBit (num den : Nat) : Int :=
  let guess : Int := num.log2 - den.log2
  let (n, d) := scaled num den guess
  if n < d then guess - 1 else guess

/-- The magnitude nearest to a quotient. -/
def ofQuotient? (num den : Nat) : Option Binary64 :=
  if num = 0 then some zero
  else
    let exponent := max leastExponent (leadingBit num den - 52)
    let (n, d) := scaled num den exponent
    let mantissa := roundDiv n d
    let (mantissa, exponent) :=
      if mantissa = Nat.pow 2 53 then (Nat.pow 2 52, exponent + 1) else (mantissa, exponent)
    if greatestExponent < exponent then none else some ⟨mantissa, exponent⟩

/-- Numerator and denominator of a magnitude. -/
def quotient (x : Binary64) : Nat × Nat :=
  match x.exponent with
  | .ofNat k => (x.mantissa * Nat.pow 2 k, 1)
  | .negSucc k => (x.mantissa, Nat.pow 2 (k + 1))

def mul? (x y : Binary64) : Option Binary64 :=
  ofQuotient? (x.quotient.1 * y.quotient.1) (x.quotient.2 * y.quotient.2)

def div? (x y : Binary64) : Option Binary64 :=
  ofQuotient? (x.quotient.1 * y.quotient.2) (x.quotient.2 * y.quotient.1)

def ofNat? (n : Nat) : Option Binary64 :=
  ofQuotient? n 1

/-- The largest power of ten that has a finite magnitude. -/
def greatestTen : Nat := 308

def powerOfTen? (n : Nat) : Option Binary64 :=
  ofNat? (Nat.pow 10 n)

/-- Repeated division by the largest power of ten. Each step rounds, and zero stays zero. -/
def divGreatest? : Nat → Binary64 → Option Binary64
  | 0, x => some x
  | steps + 1, x =>
      if x.isZero then some x
      else do
        let y ← x.div? (← powerOfTen? greatestTen)
        divGreatest? steps y

/-- Division by a power of ten other than one, in as few steps as powers of ten allow, the
largest ones first. -/
def divTen? (x : Binary64) (n : Nat) : Option Binary64 := do
  let steps := (n - 1) / greatestTen
  let y ← divGreatest? steps x
  y.div? (← powerOfTen? (n - steps * greatestTen))

/-- A significand times a power of ten. The significand is rounded first, then the product. -/
def ofScientific? (significand : Nat) (exponent : Int) : Option Binary64 := do
  let x ← ofNat? significand
  match exponent with
  | .ofNat n =>
      if n ≤ greatestTen then x.mul? (← powerOfTen? n)
      else if x.isZero then some x
      else none
  | .negSucc n => x.divTen? (n + 1)

end Binary64

end FeatureCompiler.Decimal
