import FeatureCompiler.Outcome
import FeatureCompiler.Script.Fault

/-!
String literals of a script and the text that they spell. Single-quoted, double-quoted and
substitution-free template literals share one reader, which is given the quote that ends them.
-/

namespace FeatureCompiler.Script

/-- The number written by the digits of an escape. Its value has to fit 32 bits before it is
looked at as a code point. -/
def escapeCode (digits : List Char) : Except Fault Nat :=
  match Text.hexValue? digits with
  | some code =>
      if code < Nat.pow 2 32 then .ok code else .error (.invalidEscape (String.ofList digits))
  | none => .error (.invalidEscape (String.ofList digits))

def codePoint (code : Nat) : Except Fault Char :=
  if code.isValidChar then .ok (Char.ofNat code) else .error (.invalidCodePoint code)

/-- The character spelled by the digits of an escape. -/
def escapedChar (digits : List Char) : Except Fault Char := do
  codePoint (← escapeCode digits)

def isHighSurrogate (code : Nat) : Bool :=
  0xd800 ≤ code && code < 0xdc00

def isLowSurrogate (code : Nat) : Bool :=
  0xdc00 ≤ code && code < 0xe000

/-- The code point above the basic plane that two surrogates stand for. -/
def surrogatePair (high low : Nat) : Nat :=
  0x10000 + (high - 0xd800) * 0x400 + (low - 0xdc00)

/-- The low surrogate that an escape at the start of the text spells, with the text after it. -/
def lowSurrogate? : List Char → Option (Nat × List Char)
  | '\\' :: 'u' :: a :: b :: c :: d :: rest => do
      let low ← Text.hexValue? [a, b, c, d]
      if isLowSurrogate low then some (low, rest) else none
  | _ => none

/-- What follows `\u`: digits in braces, or four digits, or four digits and a second escape when
the first is a high surrogate. A high surrogate on its own is no character. -/
def unicodeEscape : List Char → Except Fault (Char × List Char)
  | '{' :: rest =>
      match rest.dropWhile (· ≠ '}') with
      | [] => .error .unterminatedUnicodeEscape
      | _ :: after => do
          let c ← escapedChar (rest.takeWhile (· ≠ '}'))
          return (c, after)
  | a :: b :: c :: d :: rest => do
      let code ← escapeCode [a, b, c, d]
      match if isHighSurrogate code then lowSurrogate? rest else none with
      | some (low, after) => return (← codePoint (surrogatePair code low), after)
      | none => return (← codePoint code, rest)
  | _ => .error .unterminatedEscape

/-- What follows a backslash: the character that it stands for, if any, and the text after it.
A line end stands for nothing, and the zero byte is written `\0` only if no digit follows. -/
def escape : List Char → Except Fault (Option Char × List Char)
  | [] => .error .unterminatedString
  | 'n' :: rest => .ok (some '\n', rest)
  | 't' :: rest => .ok (some '\t', rest)
  | 'r' :: rest => .ok (some '\r', rest)
  | 'b' :: rest => .ok (some '\x08', rest)
  | 'f' :: rest => .ok (some '\x0c', rest)
  | 'v' :: rest => .ok (some '\x0b', rest)
  | '0' :: rest =>
      if rest.head?.any Char.isDigit then .ok (some '0', rest) else .ok (some '\x00', rest)
  | 'x' :: a :: b :: rest => do
      let c ← escapedChar [a, b]
      return (some c, rest)
  | 'x' :: _ => .error .unterminatedEscape
  | 'u' :: rest => do
      let (c, after) ← unicodeEscape rest
      return (some c, after)
  | '\r' :: '\n' :: rest => .ok (none, rest)
  | '\r' :: rest => .ok (none, rest)
  | '\n' :: rest => .ok (none, rest)
  | '\u2028' :: rest => .ok (none, rest)
  | '\u2029' :: rest => .ok (none, rest)
  | c :: rest => .ok (some c, rest)

theorem lowSurrogate?_length_lt {text rest : List Char} {low : Nat}
    (h : lowSurrogate? text = some (low, rest)) : rest.length < text.length := by
  unfold lowSurrogate? at h
  split at h
  · simp only [Option.bind_eq_bind, Option.bind_eq_some_iff] at h
    obtain ⟨code, -, h⟩ := h
    split at h
    · cases h
      simp only [List.length_cons]
      omega
    · cases h
  · cases h

theorem unicodeEscape_length_lt {text rest : List Char} {c : Char}
    (h : unicodeEscape text = .ok (c, rest)) : rest.length < text.length := by
  unfold unicodeEscape at h
  split at h
  · next braced =>
      split at h
      · cases h
      · next hdrop =>
          obtain ⟨_, -, h⟩ := bind_eq_ok h
          cases h
          have := (List.dropWhile_sublist (l := braced) (p := (· ≠ '}'))).length_le
          rw [hdrop] at this
          simp only [List.length_cons] at this ⊢
          omega
  · obtain ⟨code, -, h⟩ := bind_eq_ok h
    split at h
    · next hlow =>
        obtain ⟨_, -, h⟩ := bind_eq_ok h
        cases h
        split at hlow
        · have := lowSurrogate?_length_lt hlow
          simp only [List.length_cons]
          omega
        · cases hlow
    · obtain ⟨_, -, h⟩ := bind_eq_ok h
      cases h
      simp only [List.length_cons]
      omega
  · cases h

theorem escape_length_lt {text rest : List Char} {c : Option Char}
    (h : escape text = .ok (c, rest)) : rest.length < text.length := by
  unfold escape at h
  split at h
  case h_8 => split at h <;> cases h <;> simp
  case h_9 =>
    obtain ⟨_, -, h⟩ := bind_eq_ok h
    cases h
    simp only [List.length_cons]
    omega
  case h_11 =>
    obtain ⟨_, hunicode, h⟩ := bind_eq_ok h
    cases h
    have := unicodeEscape_length_lt hunicode
    simp only [List.length_cons]
    omega
  all_goals
    cases h <;> simp only [List.length_cons] <;> omega

/-- The text of a literal up to the quote that ends it, and what follows that quote. In a template
literal the start of a substitution is refused. -/
def readLiteral (quote : Char) (text : List Char) : Except Fault (List Char × List Char) :=
  match text with
  | [] => .error .unterminatedString
  | '\\' :: rest =>
      match _hescape : escape rest with
      | .error fault => .error fault
      | .ok (c, after) => do
          let (value, final) ← readLiteral quote after
          return (c.toList ++ value, final)
  | c :: rest =>
      if c = quote then .ok ([], rest)
      else if quote = '`' ∧ c = '$' ∧ rest.head? = some '{' then .error .interpolatedKey
      else do
        let (value, final) ← readLiteral quote rest
        return (c :: value, final)
termination_by text.length
decreasing_by
  · have := escape_length_lt _hescape
    simp only [List.length_cons]
    omega
  · simp

theorem readLiteral_length_lt {quote : Char} {text rest value : List Char}
    (h : readLiteral quote text = .ok (value, rest)) : rest.length < text.length := by
  fun_induction readLiteral quote text generalizing value rest with
  | case1 => cases h
  | case2 => cases h
  | case3 after c tail hescape ih =>
      obtain ⟨_, hrest, h⟩ := bind_eq_ok h
      cases h
      have := escape_length_lt hescape
      have := ih hrest
      simp only [List.length_cons]
      omega
  | case4 => cases h; simp
  | case5 => cases h
  | case6 c after _ _ _ ih =>
      obtain ⟨_, hrest, h⟩ := bind_eq_ok h
      cases h
      have := ih hrest
      simp only [List.length_cons]
      omega

end FeatureCompiler.Script
