import FeatureCompiler.Text.Hex

/-!
Why the keys of a step script cannot be read off its text.
-/

namespace FeatureCompiler.Script

inductive Fault where
  | unterminatedComment
  | unterminatedString
  | unterminatedTemplate
  | unterminatedEscape
  | unterminatedUnicodeEscape
  /-- The digits of a numeric escape are missing, not hexadecimal, or too large for any code. -/
  | invalidEscape (digits : String)
  /-- A numeric escape whose number is a surrogate or lies beyond the last code point. -/
  | invalidCodePoint (code : Nat)
  /-- A substitution in a template literal that stands where a key is read. -/
  | interpolatedKey
  | unbalanced (bracket : Char)
  | unexpectedEnd
  | notAKey (found : Char)
  | noSeparator (found : Char)
  | noDefaultExport
  | hooksNotLiteral (key : String)
deriving Repr, DecidableEq

def Fault.message : Fault → String
  | .unterminatedComment => "unterminated block comment"
  | .unterminatedString => "unterminated string"
  | .unterminatedTemplate => "unterminated template literal"
  | .unterminatedEscape => "unterminated escape sequence"
  | .unterminatedUnicodeEscape => "unterminated unicode escape"
  | .invalidEscape digits => s!"invalid escape sequence '{digits}'"
  | .invalidCodePoint code => "invalid code point U+" ++ String.ofList (Text.upperHex code)
  | .interpolatedKey => "template literal keys with interpolation are not supported"
  | .unbalanced bracket => s!"unbalanced '{bracket}'"
  | .unexpectedEnd => "unexpected end of file"
  | .notAKey found => s!"unexpected '{found}' where a property key was expected"
  | .noSeparator found => s!"expected ',' or '\x7d', found '{found}'"
  | .noDefaultExport => "no default-exported object literal found"
  | .hooksNotLiteral key => s!"'{key}' must be an object literal"

end FeatureCompiler.Script
