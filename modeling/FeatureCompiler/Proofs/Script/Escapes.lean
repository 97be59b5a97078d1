import FeatureCompiler.Proofs.Outcome
import FeatureCompiler.Proofs.Script.Literal
import FeatureCompiler.Proofs.Text.Hex

/-!
The spellings of a string literal. A character stands for itself or is written with one of several
escapes, and a line end after a backslash stands for nothing. The literal reader accepts exactly the
texts that are put together from such spellings, up to the first quote that is not part of one.
-/

namespace FeatureCompiler.Script

section Codes

theorem codePoint_eq_ok_iff {code : Nat} {c : Char} :
    codePoint code = .ok c ↔ code = c.toNat := by
  constructor
  · intro h
    unfold codePoint at h
    split at h
    · next hvalid =>
        cases h
        rw [Char.ofNat, dif_pos hvalid]
        rfl
    · cases h
  · rintro rfl
    have hvalid : c.toNat.isValidChar := c.valid
    rw [codePoint, if_pos hvalid, Char.ofNat_toNat]

theorem escapeCode_eq_ok_iff {digits : List Char} {code : Nat} :
    escapeCode digits = .ok code ↔ Text.hexValue? digits = some code ∧ code < Nat.pow 2 32 := by
  unfold escapeCode
  split
  · next found hfound =>
      split
      · next hlt =>
          rw [hfound]
          constructor
          · rintro ⟨⟩
            exact ⟨rfl, hlt⟩
          · rintro ⟨⟨⟩, -⟩
            rfl
      · next hge =>
          rw [hfound]
          constructor
          · intro h
            cases h
          · rintro ⟨⟨⟩, hlt⟩
            exact absurd hlt hge
  · next hnone =>
      rw [hnone]
      constructor
      · intro h
        cases h
      · rintro ⟨h, -⟩
        cases h

theorem toNat_lt (c : Char) : c.toNat < Nat.pow 2 32 :=
  c.val.toNat_lt

/-- Any number of leading zeros is allowed. -/
theorem escapedChar_eq_ok_iff {digits : List Char} {c : Char} :
    escapedChar digits = .ok c ↔ Text.hexValue? digits = some c.toNat := by
  rw [escapedChar, bind_eq_ok_iff]
  constructor
  · rintro ⟨code, hcode, hpoint⟩
    rw [codePoint_eq_ok_iff] at hpoint
    subst hpoint
    exact (escapeCode_eq_ok_iff.mp hcode).1
  · intro h
    exact ⟨c.toNat, escapeCode_eq_ok_iff.mpr ⟨h, toNat_lt c⟩, codePoint_eq_ok_iff.mpr rfl⟩

theorem not_isHighSurrogate (c : Char) : isHighSurrogate c.toNat = false := by
  have hvalid : c.toNat.isValidChar := c.valid
  simp only [Nat.isValidChar] at hvalid
  simp only [isHighSurrogate, Bool.and_eq_false_iff, decide_eq_false_iff_not]
  omega

theorem escapeCode_of_hexValue? {a b c d : Char} {code : Nat}
    (h : Text.hexValue? [a, b, c, d] = some code) : escapeCode [a, b, c, d] = .ok code := by
  have hlt : code < Nat.pow 2 32 := Nat.lt_trans (Text.hexValue?_lt h) (by decide)
  simp only [escapeCode, h, if_pos hlt]

theorem codePoint_surrogatePair {high low : Nat} (hhigh : 0xd800 ≤ high ∧ high ≤ 0xdbff)
    (hlow : 0xdc00 ≤ low ∧ low ≤ 0xdfff) :
    codePoint (surrogatePair high low) =
      .ok (Char.ofNat (0x10000 + (high - 0xd800) * 0x400 + (low - 0xdc00))) := by
  have hlower : 0xdfff < surrogatePair high low := by
    unfold surrogatePair
    omega
  have hupper : surrogatePair high low < 0x110000 := by
    unfold surrogatePair
    omega
  exact if_pos (.inr ⟨hlower, hupper⟩)

theorem unicodeEscape_pair {a b c d decoded : Char} {code low : Nat} {rest after : List Char}
    (hbrace : a ≠ '{') (hcode : Text.hexValue? [a, b, c, d] = some code)
    (hhigh : isHighSurrogate code = true) (hlow : lowSurrogate? rest = some (low, after))
    (hpoint : codePoint (surrogatePair code low) = .ok decoded) :
    unicodeEscape (a :: b :: c :: d :: rest) = .ok (decoded, after) := by
  rw [unicodeEscape]
  · rw [bind_eq_ok_iff]
    refine ⟨code, escapeCode_of_hexValue? hcode, ?_⟩
    rw [if_pos hhigh, hlow]
    dsimp only
    rw [bind_eq_ok_iff]
    exact ⟨decoded, hpoint, rfl⟩
  · exact hbrace

theorem unicodeEscape_single {a b c d decoded : Char} {code : Nat} {rest : List Char}
    (hbrace : a ≠ '{') (hcode : Text.hexValue? [a, b, c, d] = some code)
    (hhigh : isHighSurrogate code = false) (hpoint : codePoint code = .ok decoded) :
    unicodeEscape (a :: b :: c :: d :: rest) = .ok (decoded, rest) := by
  rw [unicodeEscape]
  · rw [bind_eq_ok_iff]
    refine ⟨code, escapeCode_of_hexValue? hcode, ?_⟩
    rw [hhigh, if_neg Bool.false_ne_true]
    dsimp only
    rw [bind_eq_ok_iff]
    exact ⟨decoded, hpoint, rfl⟩
  · exact hbrace

theorem lowSurrogate?_eq_some {text after : List Char} {low : Nat}
    (h : lowSurrogate? text = some (low, after)) :
    ∃ a b c d, text = '\\' :: 'u' :: a :: b :: c :: d :: after ∧
      Text.hexValue? [a, b, c, d] = some low ∧ isLowSurrogate low = true := by
  unfold lowSurrogate? at h
  split at h
  · next a b c d rest =>
      simp only [Option.bind_eq_bind, Option.bind_eq_some_iff] at h
      obtain ⟨code, hcode, h⟩ := h
      split at h
      · next hlow =>
          cases h
          exact ⟨a, b, c, d, rfl, hcode, hlow⟩
      · cases h
  · cases h

end Codes

/-- The letters that stand for a control character after a backslash. -/
def controlLetters : List (Char × Char) :=
  [('n', '\n'), ('t', '\t'), ('r', '\r'), ('b', '\x08'), ('f', '\x0c'), ('v', '\x0b')]

/-- The line ends that stand for nothing after a backslash, whatever follows. -/
def lineEnds : List (List Char) :=
  [['\n'], ['\r', '\n'], ['\u2028'], ['\u2029']]

/-- Whether a character after a backslash stands for something else than itself. -/
def isEscapeLetter (c : Char) : Bool :=
  c ∈ ['n', 't', 'r', 'b', 'f', 'v', '0', 'x', 'u', '\n', '\r', '\u2028', '\u2029']

/-- What the text after a backslash stands for, if this character follows it. -/
inductive Escapes : List Char → Option Char → Option Char → Prop where
  | control {letter c : Char} {next : Option Char} :
      (letter, c) ∈ controlLetters → Escapes [letter] next (some c)
  | zero {next : Option Char} :
      next.any Char.isDigit = false → Escapes ['0'] next (some '\x00')
  | zeroDigit {next : Option Char} :
      next.any Char.isDigit = true → Escapes ['0'] next (some '0')
  | byte {a b c : Char} {next : Option Char} :
      Text.hexValue? [a, b] = some c.toNat → Escapes ['x', a, b] next (some c)
  | unit {a b d e c : Char} {next : Option Char} :
      Text.hexValue? [a, b, d, e] = some c.toNat → Escapes ['u', a, b, d, e] next (some c)
  | pair {a b d e f g h i c : Char} {high low : Nat} {next : Option Char} :
      Text.hexValue? [a, b, d, e] = some high → isHighSurrogate high = true →
      Text.hexValue? [f, g, h, i] = some low → isLowSurrogate low = true →
      c.toNat = surrogatePair high low →
        Escapes ['u', a, b, d, e, '\\', 'u', f, g, h, i] next (some c)
  | braces {digits : List Char} {c : Char} {next : Option Char} :
      Text.hexValue? digits = some c.toNat →
        Escapes ('u' :: '{' :: (digits ++ ['}'])) next (some c)
  | itself {c : Char} {next : Option Char} :
      isEscapeLetter c = false → Escapes [c] next (some c)
  | lineEnd {ending : List Char} {next : Option Char} :
      ending ∈ lineEnds → Escapes ending next none
  | carriageReturn {next : Option Char} : next ≠ some '\n' → Escapes ['\r'] next none

/-- Only a digit and a line feed can change what stands before them. -/
theorem Escapes.congr {spelling : List Char} {next other c : Option Char}
    (h : Escapes spelling next c) (hdigit : next.any Char.isDigit = other.any Char.isDigit)
    (hline : next = some '\n' ↔ other = some '\n') : Escapes spelling other c := by
  cases h with
  | control hletter => exact .control hletter
  | zero hnext => exact .zero (hdigit ▸ hnext)
  | zeroDigit hnext => exact .zeroDigit (hdigit ▸ hnext)
  | byte hcode => exact .byte hcode
  | unit hcode => exact .unit hcode
  | pair hhigh hishigh hlow hislow hc => exact .pair hhigh hishigh hlow hislow hc
  | braces hcode => exact .braces hcode
  | itself hc => exact .itself hc
  | lineEnd hending => exact .lineEnd hending
  | carriageReturn hnext => exact .carriageReturn fun h => hnext (hline.mpr h)

theorem eq_append_of_dropWhile_ne {c d : Char} {text after : List Char}
    (h : text.dropWhile (· ≠ c) = d :: after) : text = text.takeWhile (· ≠ c) ++ c :: after := by
  have hd : d = c := by
    have hhead := List.head?_dropWhile_not (· ≠ c) text
    rw [h] at hhead
    simpa using hhead
  subst hd
  rw [← h, List.takeWhile_append_dropWhile]

theorem unicodeEscape_sound {text after : List Char} {c : Char} (next : Option Char)
    (h : unicodeEscape text = .ok (c, after)) :
    ∃ spelling, Escapes ('u' :: spelling) next (some c) ∧ text = spelling ++ after := by
  unfold unicodeEscape at h
  split at h
  · next rest =>
      split at h
      · cases h
      · next close tail hdrop =>
          obtain ⟨found, hdigits, h⟩ := bind_eq_ok h
          cases h
          refine ⟨_, .braces (escapedChar_eq_ok_iff.mp hdigits), ?_⟩
          rw [List.cons_append, List.append_assoc]
          exact congrArg _ (eq_append_of_dropWhile_ne hdrop)
  · next a b d e rest _ =>
      obtain ⟨code, hcode, h⟩ := bind_eq_ok h
      have hvalue := (escapeCode_eq_ok_iff.mp hcode).1
      split at h
      · next low tail hlow =>
          obtain ⟨found, hpoint, h⟩ := bind_eq_ok h
          cases h
          split at hlow
          · next hhigh =>
              obtain ⟨f, g, i, j, rfl, hlowvalue, hislow⟩ := lowSurrogate?_eq_some hlow
              have hc := (codePoint_eq_ok_iff.mp hpoint).symm
              exact ⟨_, .pair hvalue hhigh hlowvalue hislow hc, rfl⟩
          · cases hlow
      · obtain ⟨found, hpoint, h⟩ := bind_eq_ok h
        cases h
        rw [codePoint_eq_ok_iff] at hpoint
        subst hpoint
        exact ⟨_, .unit hvalue, rfl⟩
  · cases h

theorem escape_sound {text after : List Char} {c : Option Char} (h : escape text = .ok (c, after)) :
    ∃ spelling, Escapes spelling after.head? c ∧ text = spelling ++ after := by
  unfold escape at h
  split at h
  case h_1 | h_10 => cases h
  case h_8 =>
    split at h
    · next hdigit =>
        cases h
        exact ⟨['0'], .zeroDigit hdigit, rfl⟩
    · next hdigit =>
        cases h
        exact ⟨['0'], .zero (by simpa using hdigit), rfl⟩
  case h_9 a b rest =>
    obtain ⟨found, hcode, h⟩ := bind_eq_ok h
    cases h
    exact ⟨['x', a, b], .byte (escapedChar_eq_ok_iff.mp hcode), rfl⟩
  case h_11 rest =>
    obtain ⟨⟨found, tail⟩, hunicode, h⟩ := bind_eq_ok h
    cases h
    obtain ⟨spelling, hspelling, rfl⟩ := unicodeEscape_sound after.head? hunicode
    exact ⟨'u' :: spelling, hspelling, rfl⟩
  case h_12 rest =>
    cases h
    exact ⟨['\r', '\n'], .lineEnd (by decide), rfl⟩
  case h_13 rest hline =>
    cases h
    refine ⟨['\r'], .carriageReturn ?_, rfl⟩
    intro hhead
    obtain ⟨more, hmore⟩ := List.head?_eq_some_iff.mp hhead
    exact hline more hmore
  case h_14 | h_15 | h_16 =>
    cases h
    exact ⟨[_], .lineEnd (by decide), rfl⟩
  case h_17 =>
    cases h
    exact ⟨[_], .itself (by simp_all [isEscapeLetter]), rfl⟩
  all_goals
    cases h
    exact ⟨[_], .control (by decide), rfl⟩

/-- The digits in braces end at the first closing brace. -/
theorem unicodeEscape_brace {digits : List Char} (hdigits : '}' ∉ digits) (after : List Char) :
    unicodeEscape ('{' :: (digits ++ '}' :: after)) =
      (escapedChar digits).map fun c => (c, after) := by
  have hplain : ∀ d ∈ digits, decide (d ≠ '}') = true := by
    intro d hd
    apply decide_eq_true
    rintro rfl
    exact hdigits hd
  have htake : (digits ++ '}' :: after).takeWhile (· ≠ '}') = digits := by
    rw [List.takeWhile_append_of_pos hplain]
    simp
  have hdrop : (digits ++ '}' :: after).dropWhile (· ≠ '}') = '}' :: after := by
    rw [List.dropWhile_append_of_pos hplain]
    simp
  rw [unicodeEscape, hdrop, htake]
  cases escapedChar digits <;> rfl

theorem unicodeEscape_braces {digits after : List Char} {c : Char}
    (hcode : Text.hexValue? digits = some c.toNat) :
    unicodeEscape ('{' :: (digits ++ '}' :: after)) = .ok (c, after) := by
  have hdigits : '}' ∉ digits := fun h => Text.ne_of_hexValue? hcode (by decide) '}' h rfl
  rw [unicodeEscape_brace hdigits, escapedChar_eq_ok_iff.mpr hcode]
  rfl

theorem Escapes.escape_eq {spelling after : List Char} {c : Option Char}
    (h : Escapes spelling after.head? c) : escape (spelling ++ after) = .ok (c, after) := by
  have hbrace {a b d e : Char} {code : Nat} (hcode : Text.hexValue? [a, b, d, e] = some code) :
      a ≠ '{' := Text.ne_of_hexValue? hcode (by decide) a List.mem_cons_self
  cases h with
  | control hletter =>
      simp only [controlLetters, List.mem_cons, Prod.mk.injEq, List.not_mem_nil,
        or_false] at hletter
      rcases hletter with ⟨rfl, rfl⟩ | ⟨rfl, rfl⟩ | ⟨rfl, rfl⟩ | ⟨rfl, rfl⟩ | ⟨rfl, rfl⟩ |
        ⟨rfl, rfl⟩ <;> rfl
  | zero hnext => simp [escape, hnext]
  | zeroDigit hnext => simp [escape, hnext]
  | byte hcode =>
      simp only [List.cons_append, List.nil_append, escape, escapedChar_eq_ok_iff.mpr hcode]
      rfl
  | @unit a b d e c _ hcode =>
      have hescape : unicodeEscape (a :: b :: d :: e :: after) = .ok (c, after) :=
        unicodeEscape_single (hbrace hcode) hcode (not_isHighSurrogate c)
          (codePoint_eq_ok_iff.mpr rfl)
      simp only [List.cons_append, List.nil_append, escape, hescape]
      rfl
  | @pair a b d e f g h i c high low _ hhigh hishigh hlow hislow hc =>
      have hsecond : lowSurrogate? ('\\' :: 'u' :: f :: g :: h :: i :: after) =
          some (low, after) := by
        simp [lowSurrogate?, hlow, hislow]
      have hescape := unicodeEscape_pair (hbrace hhigh) hhigh hishigh hsecond
        (codePoint_eq_ok_iff.mpr hc.symm)
      simp only [List.cons_append, List.nil_append, escape, hescape]
      rfl
  | braces hcode =>
      simp only [List.cons_append, List.nil_append, List.append_assoc, escape,
        unicodeEscape_braces hcode]
      rfl
  | itself hc =>
      simp only [isEscapeLetter, List.mem_cons, List.not_mem_nil, or_false,
        decide_eq_false_iff_not, not_or] at hc
      rw [List.singleton_append, escape] <;> simp_all
  | lineEnd hending =>
      simp only [lineEnds, List.mem_cons, List.not_mem_nil, or_false] at hending
      rcases hending with rfl | rfl | rfl | rfl <;> rfl
  | carriageReturn hnext =>
      rw [List.singleton_append, escape]
      rintro more rfl
      exact hnext rfl

/-- The quotes of a string literal, and those of a template literal. -/
def isQuote (c : Char) : Bool :=
  c = '\'' || c = '"' || c = '`'

/-- What may stand between quotes, and the text that it spells. -/
inductive Spelled (quote : Char) : List Char → List Char → Prop where
  | nil : Spelled quote [] []
  | raw {c : Char} {rest value : List Char} :
      c ≠ quote → c ≠ '\\' → ¬ (quote = '`' ∧ c = '$' ∧ rest.head? = some '{') →
      Spelled quote rest value → Spelled quote (c :: rest) (c :: value)
  | escaped {spelling rest value : List Char} {c : Option Char} :
      Escapes spelling rest.head? c → Spelled quote rest value →
        Spelled quote ('\\' :: (spelling ++ rest)) (c.toList ++ value)

section Quoted

variable {quote : Char}

theorem ne_of_isQuote (hquote : isQuote quote = true) {c : Char} (hc : isQuote c = false) :
    quote ≠ c := by
  rintro rfl
  exact Bool.false_ne_true (hc.symm.trans hquote)

theorem not_isDigit_of_isQuote (hquote : isQuote quote = true) : quote.isDigit = false := by
  simp only [isQuote, Bool.or_eq_true, decide_eq_true_eq] at hquote
  rcases hquote with (rfl | rfl) | rfl <;> rfl

/-- The closing quote is as good as the end of the text to an escape before it. -/
theorem Escapes.before_quote {spelling content rest : List Char} {c : Option Char}
    (hquote : isQuote quote = true) :
    Escapes spelling (content ++ quote :: rest).head? c ↔ Escapes spelling content.head? c := by
  cases content with
  | cons d content => rfl
  | nil =>
      have hdigit : (some quote).any Char.isDigit = (none : Option Char).any Char.isDigit :=
        not_isDigit_of_isQuote hquote
      have hline : some quote = some '\n' ↔ none = some '\n' := by
        simpa using ne_of_isQuote hquote (by decide)
      exact ⟨fun h => h.congr hdigit hline, fun h => h.congr hdigit.symm hline.symm⟩

theorem Spelled.readLiteral_eq {content value : List Char} (hquote : isQuote quote = true)
    (h : Spelled quote content value) (rest : List Char) :
    readLiteral quote (content ++ quote :: rest) = .ok (value, rest) := by
  induction h with
  | nil => exact readLiteral_quote (ne_of_isQuote hquote (by decide)) rest
  | @raw c content value hc hbackslash hplain _ ih =>
      rw [List.cons_append, readLiteral_plain hbackslash hc, ih]
      · rfl
      · rintro ⟨hbacktick, hdollar, hhead⟩
        cases content with
        | nil => exact ne_of_isQuote hquote (by decide) (Option.some.inj hhead)
        | cons d content => exact hplain ⟨hbacktick, hdollar, hhead⟩
  | escaped hescape _ ih =>
      rw [List.cons_append, List.append_assoc,
        readLiteral_escaped ((Escapes.before_quote hquote).mpr hescape).escape_eq, ih]
      rfl

theorem spelled_of_readLiteral {text value rest : List Char} (hquote : isQuote quote = true)
    (h : readLiteral quote text = .ok (value, rest)) :
    ∃ content, Spelled quote content value ∧ text = content ++ quote :: rest := by
  fun_induction readLiteral quote text generalizing value rest with
  | case1 | case2 | case5 => cases h
  | case3 text c after hescape ih =>
      obtain ⟨⟨tail, final⟩, htail, h⟩ := bind_eq_ok h
      cases h
      obtain ⟨content, hcontent, rfl⟩ := ih htail
      obtain ⟨spelling, hspelling, rfl⟩ := escape_sound hescape
      refine ⟨_, .escaped ((Escapes.before_quote hquote).mp hspelling) hcontent, ?_⟩
      rw [List.cons_append, List.append_assoc]
  | case4 =>
      cases h
      exact ⟨[], .nil, rfl⟩
  | case6 c text hbackslash hc hplain ih =>
      obtain ⟨⟨tail, final⟩, htail, h⟩ := bind_eq_ok h
      cases h
      obtain ⟨content, hcontent, rfl⟩ := ih htail
      refine ⟨c :: content, .raw hc hbackslash ?_ hcontent, rfl⟩
      rintro ⟨hbacktick, hdollar, hhead⟩
      exact hplain ⟨hbacktick, hdollar, by rw [List.head?_append, hhead]; rfl⟩

/-- The literal reader stops at the quote behind a spelled text, and nowhere else. -/
theorem readLiteral_eq_ok_iff {text value rest : List Char} (hquote : isQuote quote = true) :
    readLiteral quote text = .ok (value, rest) ↔
      ∃ content, Spelled quote content value ∧ text = content ++ quote :: rest := by
  constructor
  · exact spelled_of_readLiteral hquote
  · rintro ⟨content, hcontent, rfl⟩
    exact hcontent.readLiteral_eq hquote rest

end Quoted

section Template

theorem skipFrames_plains {text : List Char} (h : ∀ c ∈ text, c ≠ '\\' ∧ c ≠ '`' ∧ c ≠ '$')
    (outer : List Frame) (rest : List Char) :
    skipFrames (.template :: outer) (text ++ rest) = skipFrames (.template :: outer) rest := by
  induction text with
  | nil => rfl
  | cons c text ih =>
      rw [List.forall_mem_cons] at h
      obtain ⟨⟨hbackslash, hquote, hdollar⟩, htext⟩ := h
      rw [List.cons_append, skipFrames_plain hbackslash hquote (fun h => hdollar h.1), ih htext]

theorem skipFrames_hidden (c : Char) (outer : List Frame) (rest : List Char) :
    skipFrames (.template :: outer) ('\\' :: c :: rest) = skipFrames (.template :: outer) rest := by
  rw [skipFrames, List.drop_one, List.tail_cons]

theorem plain_of_hexValue? {digits : List Char} {code : Nat}
    (h : Text.hexValue? digits = some code) :
    ∀ c ∈ digits, c ≠ '\\' ∧ c ≠ '`' ∧ c ≠ '$' := fun c hc =>
  ⟨Text.ne_of_hexValue? h (by decide) c hc, Text.ne_of_hexValue? h (by decide) c hc,
    Text.ne_of_hexValue? h (by decide) c hc⟩

theorem Escapes.skipFrames_eq {spelling : List Char} {next c : Option Char}
    (h : Escapes spelling next c) (outer : List Frame) (rest : List Char) :
    skipFrames (.template :: outer) ('\\' :: (spelling ++ rest)) =
      skipFrames (.template :: outer) rest := by
  cases h with
  | control | zero | zeroDigit | itself | carriageReturn => exact skipFrames_hidden _ outer rest
  | byte hcode | unit hcode =>
      rw [List.cons_append, skipFrames_hidden, skipFrames_plains (plain_of_hexValue? hcode)]
  | @pair a b d e f g h i _ _ _ _ hhigh _ hlow =>
      have hsecond := skipFrames_plains (plain_of_hexValue? hlow) outer rest
      have hfirst := skipFrames_plains (plain_of_hexValue? hhigh) outer
        ('\\' :: 'u' :: ([f, g, h, i] ++ rest))
      rw [skipFrames_hidden, hsecond] at hfirst
      exact (skipFrames_hidden 'u' outer _).trans hfirst
  | @braces digits _ _ hcode =>
      have hplain : ∀ c ∈ '{' :: (digits ++ ['}']), c ≠ '\\' ∧ c ≠ '`' ∧ c ≠ '$' := by
        intro c hc
        rw [List.mem_cons, List.mem_append, List.mem_singleton] at hc
        rcases hc with rfl | hc | rfl
        · decide
        · exact plain_of_hexValue? hcode c hc
        · decide
      rw [List.cons_append, skipFrames_hidden, skipFrames_plains hplain]
  | lineEnd hending =>
      simp only [lineEnds, List.mem_cons, List.not_mem_nil, or_false] at hending
      rcases hending with rfl | rfl | rfl | rfl
      · exact skipFrames_hidden _ outer rest
      · rw [List.cons_append, skipFrames_hidden, skipFrames_plains (by simp)]
      · exact skipFrames_hidden _ outer rest
      · exact skipFrames_hidden _ outer rest

/-- What a template literal spells never reaches beyond the backtick where the literal ends. -/
theorem Spelled.skipFrames_eq {content value : List Char} (h : Spelled '`' content value)
    (outer : List Frame) (rest : List Char) :
    skipFrames (.template :: outer) (content ++ '`' :: rest) = skipFrames outer rest := by
  induction h with
  | nil => rw [List.nil_append, skipFrames]
  | @raw c content value hc hbackslash hplain _ ih =>
      rw [List.cons_append, skipFrames_plain hbackslash hc, ih]
      rintro ⟨hdollar, hhead⟩
      cases content with
      | nil => cases hhead
      | cons d content => exact hplain ⟨rfl, hdollar, hhead⟩
  | escaped hescape _ ih =>
      rw [List.cons_append, List.append_assoc, hescape.skipFrames_eq, ih]

end Template

end FeatureCompiler.Script
