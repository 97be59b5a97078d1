import FeatureCompiler.Script.Literal
import FeatureCompiler.Script.Trivia

/-!
The extent of a template literal. A substitution in it is code, which can hold brackets, strings,
comments and further templates, so the end is found with a stack of what is still open.
-/

namespace FeatureCompiler.Script

/-- The bracket that closes an opening one. -/
def closing? : Char → Option Char
  | '(' => some ')'
  | '[' => some ']'
  | '{' => some '}'
  | _ => none

def isClosing (c : Char) : Bool :=
  c = ')' || c = ']' || c = '}'

/-- Something opened and not yet closed: a template literal, or a bracket with its closing
partner. -/
inductive Frame where
  | template
  | bracket (close : Char)
deriving Repr, DecidableEq

/-- The text after everything on the stack has been closed. In a template a backslash hides the
next character, whatever it is; string literals in a substitution have to be well formed. -/
def skipFrames (frames : List Frame) (text : List Char) : Except Fault (List Char) :=
  match frames with
  | [] => .ok text
  | .template :: outer =>
      match text with
      | [] => .error .unterminatedTemplate
      | '\\' :: rest => skipFrames (.template :: outer) (rest.drop 1)
      | '`' :: rest => skipFrames outer rest
      | '$' :: '{' :: rest => skipFrames (.bracket '}' :: .template :: outer) rest
      | _ :: rest => skipFrames (.template :: outer) rest
  | .bracket close :: outer =>
      match _htrivia : skipTrivia .blanks text with
      | .error fault => .error fault
      | .ok [] => .error .unexpectedEnd
      | .ok ('`' :: rest) => skipFrames (.template :: .bracket close :: outer) rest
      | .ok (c :: rest) =>
          match closing? c with
          | some partner => skipFrames (.bracket partner :: .bracket close :: outer) rest
          | none =>
              if isClosing c then
                if c = close then skipFrames outer rest else .error (.unbalanced c)
              else if c = '\'' ∨ c = '"' then
                match _hliteral : readLiteral c rest with
                | .error fault => .error fault
                | .ok (_, after) => skipFrames (.bracket close :: outer) after
              else skipFrames (.bracket close :: outer) rest
termination_by text.length
decreasing_by
  · simp only [List.length_cons, List.length_drop]
    omega
  · simp
  · simp only [List.length_cons]
    omega
  · simp
  · have := skipTrivia_length_le _htrivia
    simp only [List.length_cons] at this
    omega
  · have := skipTrivia_length_le _htrivia
    simp only [List.length_cons] at this
    omega
  · have := skipTrivia_length_le _htrivia
    simp only [List.length_cons] at this
    omega
  · have := skipTrivia_length_le _htrivia
    have := readLiteral_length_lt _hliteral
    simp only [List.length_cons] at *
    omega
  · have := skipTrivia_length_le _htrivia
    simp only [List.length_cons] at this
    omega

theorem skipFrames_length_le {frames : List Frame} {text rest : List Char}
    (h : skipFrames frames text = .ok rest) : rest.length ≤ text.length := by
  fun_induction skipFrames frames text with
  | case1 => cases h; exact Nat.le_refl _
  | case2 | case7 | case8 | case12 | case13 => cases h
  | case3 _ _ ih =>
      have := ih h
      simp only [List.length_drop, List.length_cons] at *
      omega
  | case4 _ _ ih => have := ih h; simp only [List.length_cons] at *; omega
  | case5 _ _ ih => have := ih h; simp only [List.length_cons] at *; omega
  | case6 _ _ _ _ _ _ ih => have := ih h; simp only [List.length_cons] at *; omega
  | case9 _ _ _ _ htrivia ih =>
      have := skipTrivia_length_le htrivia
      have := ih h
      simp only [List.length_cons] at *
      omega
  | case10 _ _ _ _ _ _ htrivia _ _ ih =>
      have := skipTrivia_length_le htrivia
      have := ih h
      simp only [List.length_cons] at *
      omega
  | case11 _ _ _ _ _ htrivia _ _ ih =>
      have := skipTrivia_length_le htrivia
      have := ih h
      simp only [List.length_cons] at *
      omega
  | case14 _ _ _ _ _ _ htrivia _ _ _ _ _ hliteral ih =>
      have := skipTrivia_length_le htrivia
      have := readLiteral_length_lt hliteral
      have := ih h
      simp only [List.length_cons] at *
      omega
  | case15 _ _ _ _ _ _ htrivia _ _ _ ih =>
      have := skipTrivia_length_le htrivia
      have := ih h
      simp only [List.length_cons] at *
      omega

end FeatureCompiler.Script
