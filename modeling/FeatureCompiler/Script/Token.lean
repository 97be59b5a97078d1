import FeatureCompiler.Script.Template
import FeatureCompiler.Text.Alphabetic
import FeatureCompiler.Text.Numeric

/-!
The tokens of a script: words, literals, and single characters for everything else. What a literal
spells is not part of its token; whoever needs it reads the literal again from its lexeme.
-/

namespace FeatureCompiler.Script

inductive Token where
  | word (name : String)
  | mark (c : Char)
  | literal
deriving Repr, DecidableEq

/-- A token with the text that starts at its first character. -/
structure Lexeme where
  token : Token
  source : List Char
deriving Repr, DecidableEq

def isWordChar (c : Char) : Bool :=
  Text.isAlphabetic c || Text.isNumeric c || c = '_' || c = '$'

/-- The token that starts with `c`, and the text after it. -/
def readToken (c : Char) (rest : List Char) : Except Fault (Token × List Char) :=
  if c = '\'' ∨ c = '"' then do
    let (_, after) ← readLiteral c rest
    return (.literal, after)
  else if c = '`' then do
    let after ← skipFrames [.template] rest
    return (.literal, after)
  else if isWordChar c then
    .ok (.word (String.ofList (c :: rest.takeWhile isWordChar)), rest.dropWhile isWordChar)
  else .ok (.mark c, rest)

theorem readToken_length_le {c : Char} {text rest : List Char} {token : Token}
    (h : readToken c text = .ok (token, rest)) : rest.length ≤ text.length := by
  unfold readToken at h
  split at h
  · obtain ⟨_, hliteral, h⟩ := bind_eq_ok h
    cases h
    exact Nat.le_of_lt (readLiteral_length_lt hliteral)
  · split at h
    · obtain ⟨_, hframes, h⟩ := bind_eq_ok h
      cases h
      exact skipFrames_length_le hframes
    · split at h
      · cases h
        exact (List.dropWhile_sublist (l := text) (p := isWordChar)).length_le
      · cases h
        exact Nat.le_refl _

/-- All tokens of a text in order. -/
def lexemes (text : List Char) : Except Fault (List Lexeme) :=
  match _htrivia : skipTrivia .blanks text with
  | .error fault => .error fault
  | .ok [] => .ok []
  | .ok (c :: rest) =>
      match _htoken : readToken c rest with
      | .error fault => .error fault
      | .ok (token, after) => do
          let more ← lexemes after
          return ⟨token, c :: rest⟩ :: more
termination_by text.length
decreasing_by
  have := skipTrivia_length_le _htrivia
  have := readToken_length_le _htoken
  simp only [List.length_cons] at *
  omega

end FeatureCompiler.Script
