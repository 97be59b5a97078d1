import FeatureCompiler.Text.Hex
import Mathlib.Algebra.Group.Nat.Defs

/-!
Bounds on what hexadecimal digits are worth, which characters they can be, and that a number can be
told from its digits.
-/

namespace FeatureCompiler.Text

theorem hexDigit?_lt {c : Char} {digit : Nat} (h : hexDigit? c = some digit) : digit < 16 := by
  unfold hexDigit? at h
  have hle {first last : Char} (hc : first ≤ c ∧ c ≤ last) :
      first.toNat ≤ c.toNat ∧ c.toNat ≤ last.toNat :=
    ⟨UInt32.le_iff_toNat_le.mp hc.1, UInt32.le_iff_toNat_le.mp hc.2⟩
  split at h
  · next hc =>
      have hlast : c.toNat ≤ 57 := (hle hc).2
      have hfirst : '0'.toNat = 48 := rfl
      cases h
      omega
  · split at h
    · next hc =>
        have hlast : c.toNat ≤ 102 := (hle hc).2
        have hfirst : 'a'.toNat = 97 := rfl
        cases h
        omega
    · split at h
      · next hc =>
          have hlast : c.toNat ≤ 70 := (hle hc).2
          have hfirst : 'A'.toNat = 65 := rfl
          cases h
          omega
      · cases h

theorem hexValueFrom_lt {value code : Nat} {digits : List Char}
    (h : hexValueFrom value digits = some code) : code < (value + 1) * 16 ^ digits.length := by
  induction digits generalizing value with
  | nil =>
      cases h
      simp
  | cons c digits ih =>
      simp only [hexValueFrom, Option.bind_eq_bind, Option.bind_eq_some_iff] at h
      obtain ⟨digit, hdigit, hrest⟩ := h
      have hlt := hexDigit?_lt hdigit
      calc
        code < (value * 16 + digit + 1) * 16 ^ digits.length := ih hrest
        _ ≤ (value + 1) * 16 * 16 ^ digits.length := by
          apply Nat.mul_le_mul_right
          omega
        _ = (value + 1) * 16 ^ (digits.length + 1) := by
          rw [Nat.pow_succ, Nat.mul_assoc, Nat.mul_comm 16]

/-- Four digits give at most sixteen bits. -/
theorem hexValue?_lt {a b c d : Char} {code : Nat} (h : hexValue? [a, b, c, d] = some code) :
    code < 0x10000 := by
  have hlt : code < (0 + 1) * 16 ^ 4 := hexValueFrom_lt h
  exact hlt

theorem hexDigit?_of_hexValueFrom {value code : Nat} {digits : List Char}
    (h : hexValueFrom value digits = some code) : ∀ c ∈ digits, (hexDigit? c).isSome = true := by
  induction digits generalizing value with
  | nil => simp
  | cons c digits ih =>
      simp only [hexValueFrom, Option.bind_eq_bind, Option.bind_eq_some_iff] at h
      obtain ⟨digit, hdigit, hrest⟩ := h
      rw [List.forall_mem_cons]
      exact ⟨by rw [hdigit]; rfl, ih hrest⟩

theorem hexDigit?_of_hexValue? {code : Nat} {digits : List Char}
    (h : hexValue? digits = some code) : ∀ c ∈ digits, (hexDigit? c).isSome = true := by
  cases digits with
  | nil => simp
  | cons c digits => exact hexDigit?_of_hexValueFrom h

theorem ne_of_hexValue? {code : Nat} {digits : List Char} (h : hexValue? digits = some code)
    {c : Char} (hc : hexDigit? c = none) : ∀ d ∈ digits, d ≠ c := by
  rintro d hd rfl
  have := hexDigit?_of_hexValue? h d hd
  rw [hc] at this
  cases this

theorem hexValueFrom_append (value : Nat) (digits more : List Char) :
    hexValueFrom value (digits ++ more) =
      (hexValueFrom value digits).bind fun value => hexValueFrom value more := by
  induction digits generalizing value with
  | nil => rfl
  | cons c digits ih =>
      rw [List.cons_append, hexValueFrom, hexValueFrom]
      cases hexDigit? c with
      | none => rfl
      | some digit => exact ih _

theorem hexDigit?_digitChar {digit : Nat} (h : digit < 16) :
    hexDigit? digit.digitChar = some digit := by
  have hdigits : ∀ digit < 16, hexDigit? digit.digitChar = some digit := by decide
  exact hdigits digit h

theorem hexValueFrom_lowerHex (n : Nat) : hexValueFrom 0 (lowerHex n) = some n := by
  induction n using Nat.strongRecOn with
  | ind n ih =>
      rw [lowerHex, Nat.toDigits_eq_if (by decide)]
      split
      · next hlt => simp [hexValueFrom, hexDigit?_digitChar hlt]
      · next hle =>
          have hquotient := ih (n / 16) (by omega)
          rw [lowerHex] at hquotient
          rw [hexValueFrom_append, hquotient, Option.bind_some, hexValueFrom,
            hexDigit?_digitChar (Nat.mod_lt n (by decide))]
          have hdivision := Nat.div_add_mod' n 16
          simp [hexValueFrom, hdivision]

/-- What is written in hexadecimal digits is read back. -/
theorem hexValue?_lowerHex (n : Nat) : hexValue? (lowerHex n) = some n := by
  have h := hexValueFrom_lowerHex n
  cases hdigits : lowerHex n with
  | nil => exact absurd hdigits Nat.toDigits_ne_nil
  | cons c digits => rwa [hdigits] at h

end FeatureCompiler.Text
