import FeatureCompiler.Json.Fault
import FeatureCompiler.Outcome

/-!
JSON numbers. As many leading digits as fit 64 bits are the significand. Further digits before the
point only raise the exponent, further digits after it are dropped.
-/

namespace FeatureCompiler.Json

def digitValue (c : Char) : Nat :=
  c.toNat - '0'.toNat

def startsWithDigit (text : List Char) : Bool :=
  text.head?.any Char.isDigit

/-- Digits that were taken: the number so far, how many they were, and the text after them. -/
structure Run where
  value : Nat
  count : Nat
  rest : List Char
deriving Repr, DecidableEq

/-- Continues a number with the digits that keep it at most `limit`. -/
def takeDigits (limit : Nat) (value : Nat) : List Char → Run
  | [] => ⟨value, 0, []⟩
  | c :: rest =>
      if c.isDigit ∧ value * 10 + digitValue c ≤ limit then
        let run := takeDigits limit (value * 10 + digitValue c) rest
        { run with count := run.count + 1 }
      else ⟨value, 0, c :: rest⟩

/-- The greatest significand. -/
def significandLimit : Nat := Nat.pow 2 64 - 1

/-- The greatest exponent that is read as a number. -/
def exponentLimit : Nat := Nat.pow 2 31 - 1

/-- A number under construction: its sign, its significand, and a power of ten. -/
structure Parts where
  isNegative : Bool
  significand : Nat
  exponent : Int
deriving Repr, DecidableEq

/-- The floating-point number with these parts. -/
def Parts.toFloat (parts : Parts) (rest : List Char) : Except Fault (Number × List Char) :=
  match Decimal.Binary64.ofScientific? parts.significand parts.exponent with
  | some magnitude => .ok (.float parts.isNegative magnitude, rest)
  | none => .error ⟨.numberOutOfRange, rest, 0⟩

/-- The whole number with this sign. Negative zero and what does not fit are floating-point. -/
def wholeNumber (isNegative : Bool) (n : Nat) (rest : List Char) :
    Except Fault (Number × List Char) :=
  if !isNegative then .ok (.natural n, rest)
  else if 0 < n ∧ n ≤ Nat.pow 2 63 then .ok (.negative n, rest)
  else Parts.toFloat ⟨true, n, 0⟩ rest

/-- The sign of an exponent, and the text after it. -/
def exponentSign : List Char → Bool × List Char
  | '+' :: rest => (false, rest)
  | '-' :: rest => (true, rest)
  | rest => (false, rest)

/-- What follows the mark of an exponent. An exponent that is too large to be read makes the number
zero or puts it out of range. -/
def readExponent (parts : Parts) (text : List Char) : Except Fault (Number × List Char) :=
  let (isNegative, text) := exponentSign text
  match text with
  | [] => .error (.atEnd .endInValue)
  | c :: rest =>
      if !c.isDigit then .error ⟨.invalidNumber, c :: rest, 1⟩
      else
        let run := takeDigits exponentLimit (digitValue c) rest
        if startsWithDigit run.rest then
          if parts.significand ≠ 0 ∧ !isNegative then
            .error ⟨.numberOutOfRange, run.rest.drop 1, 0⟩
          else .ok (.float parts.isNegative .zero, run.rest.dropWhile Char.isDigit)
        else
          Parts.toFloat
            { parts with
              exponent := if isNegative then parts.exponent - run.value
                else parts.exponent + run.value }
            run.rest

/-- What follows the digits of a floating-point number. -/
def readTail (parts : Parts) : List Char → Except Fault (Number × List Char)
  | 'e' :: rest => readExponent parts rest
  | 'E' :: rest => readExponent parts rest
  | rest => parts.toFloat rest

/-- What follows the decimal point. -/
def readFraction (parts : Parts) (text : List Char) : Except Fault (Number × List Char) :=
  let run := takeDigits significandLimit parts.significand text
  if run.count = 0 ∧ !startsWithDigit run.rest then
    .error (.atNext (if run.rest.isEmpty then .endInValue else .invalidNumber) run.rest)
  else
    readTail ⟨parts.isNegative, run.value, parts.exponent - run.count⟩
      (run.rest.dropWhile Char.isDigit)

/-- What follows the digits before the point. -/
def readAfterWhole (isNegative : Bool) (n : Nat) : List Char → Except Fault (Number × List Char)
  | '.' :: rest => readFraction ⟨isNegative, n, 0⟩ rest
  | 'e' :: rest => readExponent ⟨isNegative, n, 0⟩ rest
  | 'E' :: rest => readExponent ⟨isNegative, n, 0⟩ rest
  | rest => wholeNumber isNegative n rest

/-- What follows the digits before the point when `dropped` of them did not fit. -/
def readAfterLong (isNegative : Bool) (n dropped : Nat) :
    List Char → Except Fault (Number × List Char)
  | '.' :: rest => readFraction ⟨isNegative, n, dropped⟩ rest
  | rest => readTail ⟨isNegative, n, dropped⟩ rest

/-- A number after its sign. No digit may follow a leading zero. -/
def readNumber (isNegative : Bool) : List Char → Except Fault (Number × List Char)
  | [] => .error (.atEnd .endInValue)
  | '0' :: rest =>
      if startsWithDigit rest then .error (.atNext .invalidNumber rest)
      else readAfterWhole isNegative 0 rest
  | c :: rest =>
      if !c.isDigit then .error ⟨.invalidNumber, c :: rest, 1⟩
      else
        let run := takeDigits significandLimit (digitValue c) rest
        if startsWithDigit run.rest then
          readAfterLong isNegative run.value (run.rest.takeWhile Char.isDigit).length
            (run.rest.dropWhile Char.isDigit)
        else readAfterWhole isNegative run.value run.rest

theorem takeDigits_length (limit value : Nat) (text : List Char) :
    (takeDigits limit value text).count + (takeDigits limit value text).rest.length =
      text.length := by
  fun_induction takeDigits limit value text with
  | case1 => rfl
  | case2 _ _ _ _ run ih =>
      simp +zetaDelta only [List.length_cons] at *
      omega
  | case3 => simp

theorem Parts.toFloat_rest {parts : Parts} {text rest : List Char} {number : Number}
    (h : parts.toFloat text = .ok (number, rest)) : rest = text := by
  unfold Parts.toFloat at h
  split at h <;> cases h
  rfl

theorem dropDigits_length_le (text : List Char) :
    (text.dropWhile Char.isDigit).length ≤ text.length :=
  (List.dropWhile_sublist (l := text) (p := Char.isDigit)).length_le

theorem exponentSign_length_le (text : List Char) :
    (exponentSign text).2.length ≤ text.length := by
  unfold exponentSign
  split <;> simp

theorem readExponent_length_le {parts : Parts} {text rest : List Char} {number : Number}
    (h : readExponent parts text = .ok (number, rest)) : rest.length ≤ text.length := by
  have hsign := exponentSign_length_le text
  unfold readExponent at h
  dsimp only at h
  split at h
  · cases h
  · next c tail heq =>
      rw [heq] at hsign
      have htaken := takeDigits_length exponentLimit (digitValue c) tail
      simp only [List.length_cons] at hsign
      split at h
      · cases h
      · split at h
        · split at h
          · cases h
          · cases h
            have := dropDigits_length_le (takeDigits exponentLimit (digitValue c) tail).rest
            omega
        · rw [Parts.toFloat_rest h]
          omega

theorem readTail_length_le {parts : Parts} {text rest : List Char} {number : Number}
    (h : readTail parts text = .ok (number, rest)) : rest.length ≤ text.length := by
  unfold readTail at h
  split at h
  · have := readExponent_length_le h
    simp only [List.length_cons]
    omega
  · have := readExponent_length_le h
    simp only [List.length_cons]
    omega
  · exact Nat.le_of_eq (congrArg List.length (Parts.toFloat_rest h))

theorem readFraction_length_le {parts : Parts} {text rest : List Char} {number : Number}
    (h : readFraction parts text = .ok (number, rest)) : rest.length ≤ text.length := by
  have htaken := takeDigits_length significandLimit parts.significand text
  unfold readFraction at h
  dsimp only at h
  split at h
  · cases h
  · have := readTail_length_le h
    have := dropDigits_length_le (takeDigits significandLimit parts.significand text).rest
    omega

theorem wholeNumber_rest {isNegative : Bool} {n : Nat} {text rest : List Char} {number : Number}
    (h : wholeNumber isNegative n text = .ok (number, rest)) : rest = text := by
  unfold wholeNumber at h
  split at h
  · cases h; rfl
  · split at h
    · cases h; rfl
    · exact Parts.toFloat_rest h

theorem readAfterWhole_length_le {isNegative : Bool} {n : Nat} {text rest : List Char}
    {number : Number} (h : readAfterWhole isNegative n text = .ok (number, rest)) :
    rest.length ≤ text.length := by
  unfold readAfterWhole at h
  split at h
  · have := readFraction_length_le h
    simp only [List.length_cons]
    omega
  · have := readExponent_length_le h
    simp only [List.length_cons]
    omega
  · have := readExponent_length_le h
    simp only [List.length_cons]
    omega
  · exact Nat.le_of_eq (congrArg List.length (wholeNumber_rest h))

theorem readAfterLong_length_le {isNegative : Bool} {n dropped : Nat} {text rest : List Char}
    {number : Number} (h : readAfterLong isNegative n dropped text = .ok (number, rest)) :
    rest.length ≤ text.length := by
  unfold readAfterLong at h
  split at h
  · have := readFraction_length_le h
    simp only [List.length_cons]
    omega
  · exact readTail_length_le h

theorem readNumber_length_lt {isNegative : Bool} {text rest : List Char} {number : Number}
    (h : readNumber isNegative text = .ok (number, rest)) : rest.length < text.length := by
  unfold readNumber at h
  split at h
  · cases h
  · split at h
    · cases h
    · have := readAfterWhole_length_le h
      simp only [List.length_cons]
      omega
  · next c tail _ =>
      have htaken := takeDigits_length significandLimit (digitValue c) tail
      split at h
      · cases h
      · dsimp only at h
        split at h
        · have := readAfterLong_length_le h
          have := dropDigits_length_le (takeDigits significandLimit (digitValue c) tail).rest
          simp only [List.length_cons]
          omega
        · have := readAfterWhole_length_le h
          simp only [List.length_cons]
          omega

end FeatureCompiler.Json
