/-!
Hexadecimal digits, read in either case and written in the case that a format asks for.
-/

namespace FeatureCompiler.Text

def hexDigit? (c : Char) : Option Nat :=
  if '0' ≤ c ∧ c ≤ '9' then some (c.toNat - '0'.toNat)
  else if 'a' ≤ c ∧ c ≤ 'f' then some (c.toNat - 'a'.toNat + 10)
  else if 'A' ≤ c ∧ c ≤ 'F' then some (c.toNat - 'A'.toNat + 10)
  else none

/-- The value of a run of hexadecimal digits, most significant first, added to what came before. -/
def hexValueFrom (value : Nat) : List Char → Option Nat
  | [] => some value
  | c :: rest => do
      let digit ← hexDigit? c
      hexValueFrom (value * 16 + digit) rest

/-- The value of a non-empty run of hexadecimal digits. -/
def hexValue? : List Char → Option Nat
  | [] => none
  | digits => hexValueFrom 0 digits

def lowerHex (n : Nat) : List Char :=
  Nat.toDigits 16 n

def upperHex (n : Nat) : List Char :=
  (Nat.toDigits 16 n).map Char.toUpper

end FeatureCompiler.Text
