import FeatureCompiler.Json.Literal
import FeatureCompiler.Json.Number

/-!
JSON values that hold no others: the three words, numbers and strings.
-/

namespace FeatureCompiler.Json

def isBlank (c : Char) : Bool :=
  c = ' ' || c = '\n' || c = '\t' || c = '\r'

def skipBlanks (text : List Char) : List Char :=
  text.dropWhile isBlank

/-- The text after the characters of a word, all of which have to come next. -/
def readWord : List Char → List Char → Except Fault (List Char)
  | [], rest => .ok rest
  | _ :: _, [] => .error (.atEnd .endInValue)
  | expected :: more, c :: rest =>
      if c = expected then readWord more rest else .error ⟨.expectedWord, c :: rest, 1⟩

/-- A scalar whose first character comes next. -/
def readScalar (text : List Char) : Except Fault (Value × List Char) :=
  match text with
  | 'n' :: rest => do
      let after ← readWord ['u', 'l', 'l'] rest
      return (.null, after)
  | 't' :: rest => do
      let after ← readWord ['r', 'u', 'e'] rest
      return (.bool true, after)
  | 'f' :: rest => do
      let after ← readWord ['a', 'l', 's', 'e'] rest
      return (.bool false, after)
  | '"' :: rest => do
      let (value, after) ← readString rest
      return (.string (String.ofList value), after)
  | '-' :: rest => do
      let (number, after) ← readNumber true rest
      return (.number number, after)
  | _ =>
      if startsWithDigit text then do
        let (number, after) ← readNumber false text
        return (.number number, after)
      else .error (.atNext .expectedValue text)

theorem skipBlanks_length_le (text : List Char) : (skipBlanks text).length ≤ text.length :=
  (List.dropWhile_sublist (l := text) (p := isBlank)).length_le

theorem length_lt_of_skipBlanks {text rest : List Char} {c : Char}
    (h : skipBlanks text = c :: rest) : rest.length < text.length := by
  have := skipBlanks_length_le text
  rw [h] at this
  exact this

theorem readWord_length_le {word text rest : List Char} (h : readWord word text = .ok rest) :
    rest.length ≤ text.length := by
  fun_induction readWord word text with
  | case1 => cases h; exact Nat.le_refl _
  | case2 | case4 => cases h
  | case3 _ _ _ ih => have := ih h; simp only [List.length_cons]; omega

theorem readScalar_length_lt {text rest : List Char} {value : Value}
    (h : readScalar text = .ok (value, rest)) : rest.length < text.length := by
  unfold readScalar at h
  split at h
  case h_4 =>
    obtain ⟨_, hstring, h⟩ := bind_eq_ok h
    cases h
    have := readString_length_lt hstring
    simp only [List.length_cons]
    omega
  case h_5 =>
    obtain ⟨_, hnumber, h⟩ := bind_eq_ok h
    cases h
    have := readNumber_length_lt hnumber
    simp only [List.length_cons]
    omega
  case h_6 =>
    split at h
    · obtain ⟨_, hnumber, h⟩ := bind_eq_ok h
      cases h
      exact readNumber_length_lt hnumber
    · cases h
  all_goals
    obtain ⟨_, hword, h⟩ := bind_eq_ok h
    cases h
    have := readWord_length_le hword
    simp only [List.length_cons]
    omega

end FeatureCompiler.Json
