import FeatureCompiler.Script.Fault
import FeatureCompiler.Text.Blank

/-!
Blanks and comments, which separate the tokens of a script and mean nothing themselves. A line
comment ends after the next line feed or with the text, a block comment at the first `*/`.
-/

namespace FeatureCompiler.Script

/-- What the characters being skipped belong to. -/
inductive Trivia where
  | blanks
  | lineComment
  | blockComment
deriving Repr, DecidableEq

/-- The text from the first character that is neither blank nor part of a comment. -/
def skipTrivia : Trivia → List Char → Except Fault (List Char)
  | .blanks, [] => .ok []
  | .blanks, '/' :: '/' :: rest => skipTrivia .lineComment rest
  | .blanks, '/' :: '*' :: rest => skipTrivia .blockComment rest
  | .blanks, c :: rest => if Text.isBlank c then skipTrivia .blanks rest else .ok (c :: rest)
  | .lineComment, [] => .ok []
  | .lineComment, c :: rest => skipTrivia (if c = '\n' then .blanks else .lineComment) rest
  | .blockComment, [] => .error .unterminatedComment
  | .blockComment, '*' :: '/' :: rest => skipTrivia .blanks rest
  | .blockComment, _ :: rest => skipTrivia .blockComment rest

theorem skipTrivia_length_le {trivia : Trivia} {text rest : List Char}
    (h : skipTrivia trivia text = .ok rest) : rest.length ≤ text.length := by
  fun_induction skipTrivia trivia text with
  | case1 => cases h; exact Nat.le_refl _
  | case2 _ ih => have := ih h; simp only [List.length_cons]; omega
  | case3 _ ih => have := ih h; simp only [List.length_cons]; omega
  | case4 _ _ _ _ _ ih => have := ih h; simp only [List.length_cons]; omega
  | case5 => cases h; exact Nat.le_refl _
  | case6 => cases h; exact Nat.le_refl _
  | case7 _ _ ih => have := ih h; simp only [List.length_cons]; omega
  | case8 => cases h
  | case9 _ ih => have := ih h; simp only [List.length_cons]; omega
  | case10 _ _ _ ih => have := ih h; simp only [List.length_cons]; omega

end FeatureCompiler.Script
