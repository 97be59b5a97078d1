import FeatureCompiler.Decimal.Shortest

/-!
How a magnitude is written. With the leading digit between the fifth decimal place and the
sixteenth place before the point it is written out, with a digit on either side of the point;
outside that range it has an exponent with a sign, and no point when one digit is enough.
-/

namespace FeatureCompiler.Decimal

/-- Digits without the zeros at their end. -/
def significant (digits : List Char) : List Char :=
  (digits.reverse.dropWhile (· = '0')).reverse

/-- Digits written out around the point, the leading one at the place `10 ^ lead`. -/
def positional (digits : List Char) (lead : Int) : List Char :=
  match lead with
  | .negSucc k => '0' :: '.' :: (List.replicate k '0' ++ digits)
  | .ofNat k =>
      let whole := digits.take (k + 1)
      let fraction := digits.drop (k + 1)
      whole ++ List.replicate (k + 1 - whole.length) '0' ++ '.' ::
        if fraction = [] then ['0'] else fraction

/-- Digits with the point after the first and an exponent at the end. -/
def exponential (digits : List Char) (lead : Int) : List Char :=
  let fraction := digits.drop 1
  digits.take 1 ++ (if fraction = [] then [] else '.' :: fraction) ++
    'e' :: (if lead < 0 then '-' else '+') :: Nat.toDigits 10 lead.natAbs

def Binary64.text (x : Binary64) : List Char :=
  match if x.isZero then none else x.shortest? with
  | none => ['0', '.', '0']
  | some decimal =>
      let all := Nat.toDigits 10 decimal.digits
      let lead : Int := decimal.exponent + all.length - 1
      if -5 ≤ lead ∧ lead ≤ 15 then positional (significant all) lead
      else exponential (significant all) lead

end FeatureCompiler.Decimal
