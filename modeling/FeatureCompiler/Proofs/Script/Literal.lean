import FeatureCompiler.Json.Writer
import FeatureCompiler.Script.Template
import FeatureCompiler.TestModule.Literal

/-!
Literals that are written character by character and read back. A spelling of a character is a text
that the literal reader takes for this character wherever it stands; a text that is written with a
spelling for each character, and then the quote, is read back as it was.
-/

namespace FeatureCompiler.Script

theorem readLiteral_quote {quote : Char} (hquote : quote ≠ '\\') (rest : List Char) :
    readLiteral quote (quote :: rest) = .ok ([], rest) := by
  rw [readLiteral]
  · simp
  · exact hquote

theorem readLiteral_escaped {quote : Char} {text after : List Char} {c : Option Char}
    (h : escape text = .ok (c, after)) :
    readLiteral quote ('\\' :: text) =
      (readLiteral quote after).map fun read => (c.toList ++ read.1, read.2) := by
  rw [readLiteral]
  split
  · next hescape => cases h.symm.trans hescape
  · next hescape =>
      cases h.symm.trans hescape
      cases readLiteral quote after <;> rfl

theorem readLiteral_escape {quote c : Char} {text after : List Char}
    (h : escape text = .ok (some c, after)) :
    readLiteral quote ('\\' :: text) =
      (readLiteral quote after).map fun read => (c :: read.1, read.2) :=
  readLiteral_escaped h

theorem readLiteral_plain {quote c : Char} (hbackslash : c ≠ '\\') (hquote : c ≠ quote)
    (rest : List Char) (hplain : ¬ (quote = '`' ∧ c = '$' ∧ rest.head? = some '{')) :
    readLiteral quote (c :: rest) =
      (readLiteral quote rest).map fun read => (c :: read.1, read.2) := by
  rw [readLiteral]
  · rw [if_neg hquote, if_neg hplain]
    cases readLiteral quote rest <;> rfl
  · exact hbackslash

/-- Whatever follows it in a literal, the text stands for this character. -/
def SpellsChar (quote : Char) (spelling : List Char) (c : Char) : Prop :=
  ∀ rest, readLiteral quote (spelling ++ rest) =
    (readLiteral quote rest).map fun read => (c :: read.1, read.2)

theorem readLiteral_flatMap {quote : Char} (hquote : quote ≠ '\\') {write : Char → List Char}
    (hwrite : ∀ c, SpellsChar quote (write c) c) (text rest : List Char) :
    readLiteral quote (text.flatMap write ++ quote :: rest) = .ok (text, rest) := by
  induction text with
  | nil => exact readLiteral_quote hquote rest
  | cons c text ih =>
      rw [List.flatMap_cons, List.append_assoc, hwrite c, ih]
      rfl

theorem SpellsChar.of_escape {quote c : Char} {escaped : List Char}
    (h : ∀ rest, escape (escaped ++ rest) = .ok (some c, rest)) :
    SpellsChar quote ('\\' :: escaped) c :=
  fun rest => readLiteral_escape (h rest)

theorem SpellsChar.of_plain {c : Char} (hbackslash : c ≠ '\\') (hquote : c ≠ '"') :
    SpellsChar '"' [c] c :=
  fun rest => readLiteral_plain hbackslash hquote rest (by simp)

theorem spellsChar_escapeChar (c : Char) : SpellsChar '"' (TestModule.escapeChar c) c := by
  unfold TestModule.escapeChar
  split
  case h_6 hbackslash hquote _ _ _ => exact .of_plain hbackslash hquote
  all_goals exact .of_escape fun rest => rfl

/-- Four digits of a code below the surrogates are an escape of their own, whatever follows. -/
theorem unicodeEscape_of_lt {digits : List Char} (hlength : digits.length = 4)
    (hbrace : digits.head? ≠ some '{') {code : Nat} (hcode : Text.hexValue? digits = some code)
    (hlt : code < 0xd800) (rest : List Char) :
    unicodeEscape (digits ++ rest) = .ok (Char.ofNat code, rest) := by
  have hsmall : code < Nat.pow 2 32 := Nat.lt_trans hlt (by decide)
  have hescape : escapeCode digits = .ok code := by
    simp only [escapeCode, hcode, if_pos hsmall]
  have hsurrogate : isHighSurrogate code = false := by
    simp only [isHighSurrogate, Bool.and_eq_false_iff, decide_eq_false_iff_not]
    omega
  have hpoint : codePoint code = .ok (Char.ofNat code) := if_pos (.inl hlt)
  match digits, hlength with
  | [a, b, c, d], _ =>
      simp only [List.cons_append, List.nil_append]
      rw [unicodeEscape]
      · simp only [hescape, hsurrogate, hpoint, bind, Except.bind, pure, Except.pure,
          Bool.false_eq_true, if_false]
      · intro h
        exact hbrace (congrArg some h)

theorem spellsChar_unicode {digits : List Char} (hlength : digits.length = 4)
    (hbrace : digits.head? ≠ some '{') {c : Char} (hcode : Text.hexValue? digits = some c.toNat)
    (hlt : c.toNat < 0xd800) (quote : Char) : SpellsChar quote ('\\' :: 'u' :: digits) c := by
  apply SpellsChar.of_escape
  intro rest
  have hunicode := unicodeEscape_of_lt hlength hbrace hcode hlt rest
  rw [Char.ofNat_toNat] at hunicode
  simp only [List.cons_append, escape, hunicode]
  rfl

theorem spellsChar_writeChar (c : Char) : SpellsChar '"' (Json.writeChar c) c := by
  have hdigit : ∀ code < 0x10, (['0', '0', '0'] ++ Text.lowerHex code).length = 4 ∧
      Text.hexValue? (['0', '0', '0'] ++ Text.lowerHex code) = some code := by
    decide +kernel
  have hdigits : ∀ code < 0x20, 0x10 ≤ code → (['0', '0'] ++ Text.lowerHex code).length = 4 ∧
      Text.hexValue? (['0', '0'] ++ Text.lowerHex code) = some code := by
    decide +kernel
  unfold Json.writeChar
  split
  case h_8 hquote hbackslash _ _ _ _ _ =>
    split
    · next hlt =>
        obtain ⟨hlength, hvalue⟩ := hdigit c.toNat hlt
        exact spellsChar_unicode hlength (by simp) hvalue (by omega) '"'
    · next hge =>
        split
        · next hlt =>
            obtain ⟨hlength, hvalue⟩ := hdigits c.toNat hlt (by omega)
            exact spellsChar_unicode hlength (by simp) hvalue (by omega) '"'
        · exact .of_plain hbackslash hquote
  all_goals exact .of_escape fun rest => rfl

theorem skipFrames_plain {c : Char} {rest : List Char} (hbackslash : c ≠ '\\') (hquote : c ≠ '`')
    (hplain : ¬ (c = '$' ∧ rest.head? = some '{')) (outer : List Frame) :
    skipFrames (.template :: outer) (c :: rest) = skipFrames (.template :: outer) rest := by
  rw [skipFrames]
  · exact hbackslash
  · exact hquote
  · rintro more rfl rfl
    exact hplain ⟨rfl, rfl⟩

/-- What is written starts with a character that is never added only if the text does. -/
theorem head?_escapeTemplate {text rest : List Char} {c : Char} (hbackslash : c ≠ '\\')
    (hbacktick : c ≠ '`') (h : (TestModule.escapeTemplate text ++ '`' :: rest).head? = some c) :
    ∃ more, text = c :: more := by
  unfold TestModule.escapeTemplate at h
  split at h
  · exact absurd (Option.some.inj h).symm hbacktick
  · exact absurd (Option.some.inj h).symm hbackslash
  · exact absurd (Option.some.inj h).symm hbackslash
  · exact absurd (Option.some.inj h).symm hbackslash
  · next d more _ _ _ =>
      cases h
      exact ⟨more, rfl⟩

/-- No text between backticks can end its template literal or start a substitution in it. -/
theorem skipFrames_escapeTemplate (outer : List Frame) (text rest : List Char) :
    skipFrames (.template :: outer) (TestModule.escapeTemplate text ++ '`' :: rest) =
      skipFrames outer rest := by
  fun_induction TestModule.escapeTemplate text with
  | case1 => rw [List.nil_append, skipFrames]
  | case2 text ih | case3 text ih =>
      rw [List.cons_append, List.cons_append, skipFrames, List.drop_one, List.tail_cons, ih]
  | case4 text ih =>
      rw [List.cons_append, List.cons_append, List.cons_append, skipFrames, List.drop_one,
        List.tail_cons, skipFrames_plain (by decide) (by decide) (by simp), ih]
  | case5 c text hbackslash hquote hplain ih =>
      -- What is written after a dollar sign starts with a brace only if the text itself does.
      rw [List.cons_append, skipFrames_plain hbackslash hquote, ih]
      rintro ⟨hdollar, hhead⟩
      obtain ⟨more, hmore⟩ := head?_escapeTemplate (by decide) (by decide) hhead
      exact hplain more hdollar hmore

/-- What is written between backticks is read back as it was, whatever follows. -/
theorem readLiteral_escapeTemplate (text rest : List Char) :
    readLiteral '`' (TestModule.escapeTemplate text ++ '`' :: rest) = .ok (text, rest) := by
  fun_induction TestModule.escapeTemplate text with
  | case1 => exact readLiteral_quote (by decide) rest
  | case2 text ih | case3 text ih =>
      rw [List.cons_append, List.cons_append, readLiteral_escape rfl, ih]
      rfl
  | case4 text ih =>
      rw [List.cons_append, List.cons_append, List.cons_append, readLiteral_escape rfl,
        readLiteral_plain (by decide) (by decide) _ (by simp), ih]
      rfl
  | case5 c text hbackslash hquote hplain ih =>
      rw [List.cons_append, readLiteral_plain hbackslash hquote, ih]
      · rfl
      · rintro ⟨-, hdollar, hhead⟩
        obtain ⟨more, hmore⟩ := head?_escapeTemplate (by decide) (by decide) hhead
        exact hplain more hdollar hmore

end FeatureCompiler.Script
