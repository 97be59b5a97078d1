import FeatureCompiler.Proofs.Script.Escapes

/-!
Literals that are written with a spelling chosen for each character. A character stands as it is or
is escaped in any of the forms that there are for it, and between any two characters the literal may
go on in a new line. A few spellings mind the character behind them, and apart from that the choices
are free. However a text was written, it is read back.
-/

namespace FeatureCompiler.Script

/-- The ways to write a character in a literal. -/
inductive Spelling (c : Char) where
  | raw
  | control (letter : Char) (isControl : (letter, c) ∈ controlLetters)
  | zero (isZero : c = '\x00')
  | byte (a b : Char) (value : Text.hexValue? [a, b] = some c.toNat)
  | unit (a b d e : Char) (value : Text.hexValue? [a, b, d, e] = some c.toNat)
  | pair (a b d e f g h i : Char) (high low : Nat)
      (highValue : Text.hexValue? [a, b, d, e] = some high) (isHigh : isHighSurrogate high = true)
      (lowValue : Text.hexValue? [f, g, h, i] = some low) (isLow : isLowSurrogate low = true)
      (value : c.toNat = surrogatePair high low)
  /-- Any number of digits, so leading zeros as well. -/
  | braces (digits : List Char) (value : Text.hexValue? digits = some c.toNat)
  | itself (isPlain : isEscapeLetter c = false)

def Spelling.text {c : Char} : Spelling c → List Char
  | .raw => [c]
  | .control letter _ => ['\\', letter]
  | .zero _ => ['\\', '0']
  | .byte a b _ => ['\\', 'x', a, b]
  | .unit a b d e _ => ['\\', 'u', a, b, d, e]
  | .pair a b d e f g h i _ _ _ _ _ _ _ => ['\\', 'u', a, b, d, e, '\\', 'u', f, g, h, i]
  | .braces digits _ => '\\' :: 'u' :: '{' :: (digits ++ ['}'])
  | .itself _ => ['\\', c]

/-- Whether the spelling stands for its character between these quotes if `next` comes after it. -/
def Spelling.fits (quote : Char) (next : Option Char) {c : Char} : Spelling c → Bool
  | .raw => c ≠ quote && c ≠ '\\' && !(quote = '`' && c = '$' && next = some '{')
  | .zero _ => !next.any Char.isDigit
  | _ => true

/-- The line ends over which a literal can go on after a backslash. -/
def continuations : List (List Char) :=
  ['\r'] :: lineEnds

/-- What a literal is put together from. -/
inductive Piece where
  | char (c : Char) (spelling : Spelling c)
  | continuation (ending : List Char) (isEnding : ending ∈ continuations)

namespace Piece

def text : Piece → List Char
  | .char _ spelling => spelling.text
  | .continuation ending _ => '\\' :: ending

def value : Piece → Option Char
  | .char c _ => some c
  | .continuation _ _ => none

def fits (quote : Char) (next : Option Char) : Piece → Bool
  | .char _ spelling => spelling.fits quote next
  | .continuation ending _ => !(ending = ['\r'] && next = some '\n')

end Piece

/-- The text of the pieces, one after the other. -/
def written (pieces : List Piece) : List Char :=
  pieces.flatMap Piece.text

/-- Whether each of the pieces keeps its meaning before those that follow. -/
def fitTogether (quote : Char) : List Piece → Bool
  | [] => true
  | piece :: rest => piece.fits quote (written rest).head? && fitTogether quote rest

variable {quote : Char}

theorem Spelling.spelled {c : Char} (spelling : Spelling c) {rest value : List Char}
    (hfits : spelling.fits quote rest.head? = true) (hrest : Spelled quote rest value) :
    Spelled quote (spelling.text ++ rest) (c :: value) := by
  cases spelling with
  | raw =>
      simp only [Spelling.fits, Bool.and_eq_true, decide_eq_true_eq, Bool.not_eq_true',
        Bool.and_eq_false_iff, decide_eq_false_iff_not] at hfits
      obtain ⟨⟨hquote, hbackslash⟩, hplain⟩ := hfits
      refine .raw hquote hbackslash ?_ hrest
      rintro ⟨hbacktick, hdollar, hnext⟩
      rcases hplain with (hplain | hplain) | hplain
      · exact hplain hbacktick
      · exact hplain hdollar
      · exact hplain hnext
  | control letter hletter => exact .escaped (.control hletter) hrest
  | zero hzero =>
      have hnext : rest.head?.any Char.isDigit = false := by simpa [Spelling.fits] using hfits
      cases hzero
      exact .escaped (.zero hnext) hrest
  | byte a b hvalue => exact .escaped (.byte hvalue) hrest
  | unit a b d e hvalue => exact .escaped (.unit hvalue) hrest
  | pair a b d e f g h i high low hhigh hishigh hlow hislow hvalue =>
      exact .escaped (.pair hhigh hishigh hlow hislow hvalue) hrest
  | braces digits hvalue => exact .escaped (.braces hvalue) hrest
  | itself hplain => exact .escaped (.itself hplain) hrest

theorem Piece.spelled (piece : Piece) {rest value : List Char}
    (hfits : piece.fits quote rest.head? = true) (hrest : Spelled quote rest value) :
    Spelled quote (piece.text ++ rest) (piece.value.toList ++ value) := by
  cases piece with
  | char c spelling => exact spelling.spelled hfits hrest
  | continuation ending hending =>
      rcases List.mem_cons.mp hending with rfl | hending
      · have hnext : rest.head? ≠ some '\n' := by simpa [Piece.fits] using hfits
        exact .escaped (.carriageReturn hnext) hrest
      · exact .escaped (.lineEnd hending) hrest

theorem spelled_written {pieces : List Piece} (hfit : fitTogether quote pieces = true) :
    Spelled quote (written pieces) (pieces.filterMap Piece.value) := by
  induction pieces with
  | nil => exact .nil
  | cons piece pieces ih =>
      simp only [fitTogether, Bool.and_eq_true] at hfit
      have h := piece.spelled hfit.1 (ih hfit.2)
      rw [written, List.flatMap_cons, List.filterMap_cons]
      cases hvalue : piece.value with
      | none =>
          rw [hvalue] at h
          exact h
      | some c =>
          rw [hvalue] at h
          exact h

/-- Whatever spellings are chosen for the characters of a text and wherever its lines are continued,
the literal is read as that text, up to its closing quote and not beyond. -/
theorem readLiteral_written (hquote : isQuote quote = true) {pieces : List Piece}
    (hfit : fitTogether quote pieces = true) (rest : List Char) :
    readLiteral quote (written pieces ++ quote :: rest) =
      .ok (pieces.filterMap Piece.value, rest) :=
  (spelled_written hfit).readLiteral_eq hquote rest

/-- A dollar sign and a brace with a line continuation between them, a zero byte before a letter, a
backtick, an escape with leading zeros, a pair, and a carriage return before an escaped line
feed. -/
def samplePieces : List Piece :=
  [.char '$' .raw, .continuation ['\r'] (by decide), .char '{' .raw,
    .char '\x00' (.zero rfl), .char 'a' .raw, .char '`' (.itself (by decide)),
    .char 'A' (.braces ['0', '0', '0', '4', '1'] (by decide)),
    .char '😀' (.pair 'd' '8' '3' 'D' 'd' 'E' '0' '0' 0xd83d 0xde00 (by decide) (by decide)
      (by decide) (by decide) (by decide)),
    .char 'é' (.byte 'e' '9' (by decide)), .char '1' .raw,
    .char '\u2028' (.unit '2' '0' '2' '8' (by decide)), .continuation ['\r', '\n'] (by decide),
    .char '\n' .raw, .continuation ['\r'] (by decide), .char '\n' (.control 'n' (by decide))]

theorem readLiteral_written_samplePieces :
    isQuote '`' = true ∧ fitTogether '`' samplePieces = true ∧
      readLiteral '`' (written samplePieces ++ '`' :: "`$\x7b\\".toList) =
        .ok ("$\x7b\x00a`A😀é1\u2028\n\n".toList, "`$\x7b\\".toList) := by
  have hquote : isQuote '`' = true := by decide
  have hfit : fitTogether '`' samplePieces = true := by decide
  exact ⟨hquote, hfit, readLiteral_written hquote hfit _⟩

end FeatureCompiler.Script
