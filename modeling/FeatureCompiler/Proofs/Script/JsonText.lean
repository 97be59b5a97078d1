import FeatureCompiler.Proofs.Json.Tokens
import FeatureCompiler.Proofs.Script.Escapes
import FeatureCompiler.Proofs.Script.Spelling
import FeatureCompiler.Script.Object

/-!
JSON texts in a script. The script reader cuts a JSON text at the same places as the JSON reader: a
mark is a token of its own, a string is a literal that spells the same text in both languages, and a
number or word is a run of words, points and signs.
-/

namespace FeatureCompiler

namespace Script

theorem hexEscape_eq_ok {text rest : List Char} {code : Nat}
    (h : Json.hexEscape text = .ok (code, rest)) :
    ∃ a b c d, text = a :: b :: c :: d :: rest ∧ Text.hexValue? [a, b, c, d] = some code := by
  unfold Json.hexEscape at h
  split at h
  · cases h
  · split at h
    · next a b c d after _ =>
        split at h
        · next hcode =>
            cases h
            exact ⟨a, b, c, d, rfl, hcode⟩
        · cases h
    · cases h

theorem lowSurrogate?_of_secondHalf {text rest : List Char} {low : Nat}
    (h : Json.secondHalf text = .ok (low, rest)) :
    lowSurrogate? text = some (low, rest) ∧ 0xdc00 ≤ low ∧ low ≤ 0xdfff := by
  unfold Json.secondHalf at h
  split at h
  case h_1 =>
    obtain ⟨⟨code, after⟩, hhex, hok⟩ := bind_eq_ok h
    obtain ⟨a, b, c, d, rfl, hcode⟩ := hexEscape_eq_ok hhex
    dsimp only at hok
    split at hok
    · next hrange =>
        cases hok
        have hlow : isLowSurrogate low = true := by
          simp only [isLowSurrogate, Bool.and_eq_true, decide_eq_true_eq]
          omega
        refine ⟨?_, hrange⟩
        simp [lowSurrogate?, hcode, hlow]
    · cases hok
  all_goals cases h

theorem unicodeEscape_of_json {text rest : List Char} {c : Char}
    (h : Json.unicodeEscape text = .ok (c, rest)) : unicodeEscape text = .ok (c, rest) := by
  obtain ⟨⟨code, after⟩, hhex, hok⟩ := bind_eq_ok h
  obtain ⟨a, b, x, d, rfl, hcode⟩ := hexEscape_eq_ok hhex
  have hlt := Text.hexValue?_lt hcode
  have hbrace : a ≠ '{' := by
    rintro rfl
    simp [Text.hexValue?, Text.hexValueFrom, Text.hexDigit?] at hcode
  dsimp only at hok
  split at hok
  · cases hok
  · next hlow =>
      split at hok
      · next hhigh =>
          obtain ⟨⟨low, final⟩, hsecond, hok⟩ := bind_eq_ok hok
          obtain ⟨hpair, hrange⟩ := lowSurrogate?_of_secondHalf hsecond
          have hsurrogate : isHighSurrogate code = true := by
            simp only [isHighSurrogate, Bool.and_eq_true, decide_eq_true_eq]
            omega
          have hpoint := codePoint_surrogatePair hhigh hrange
          obtain ⟨hc, hrest⟩ := Prod.mk.inj (Except.ok.inj hok)
          rw [hc] at hpoint
          rw [← hrest]
          exact unicodeEscape_pair hbrace hcode hsurrogate hpair hpoint
      · next hhigh =>
          obtain ⟨hc, hrest⟩ := Prod.mk.inj (Except.ok.inj hok)
          have hsurrogate : isHighSurrogate code = false := by
            simp only [isHighSurrogate, Bool.and_eq_false_iff, decide_eq_false_iff_not]
            omega
          have hvalid : code.isValidChar := by
            simp only [Nat.isValidChar]
            omega
          rw [← hc, ← hrest]
          exact unicodeEscape_single hbrace hcode hsurrogate (if_pos hvalid)

theorem escape_of_json {text rest : List Char} {c : Char} (h : Json.escape text = .ok (c, rest)) :
    escape text = .ok (some c, rest) := by
  unfold Json.escape at h
  split at h
  case h_10 =>
    rw [escape, unicodeEscape_of_json h]
    rfl
  all_goals
    cases h
  all_goals rfl

/-- A JSON string spells the same text in a script. -/
theorem readLiteral_of_readString {text content rest : List Char}
    (h : Json.readString text = .ok (content, rest)) :
    readLiteral '"' text = .ok (content, rest) := by
  fun_induction Json.readString text generalizing content rest with
  | case1 | case3 | case5 => cases h
  | case2 =>
      cases h
      exact readLiteral_quote (by decide) _
  | case4 text c after hescape ih =>
      obtain ⟨read, hread, h⟩ := bind_eq_ok h
      cases h
      rw [readLiteral_escape (escape_of_json hescape), ih hread]
      rfl
  | case6 c text hquote hbackslash hcontrol ih =>
      obtain ⟨read, hread, h⟩ := bind_eq_ok h
      cases h
      rw [readLiteral_plain hbackslash hquote text (by simp), ih hread]
      rfl

/-- Lexemes that numbers and words of JSON can be cut into. -/
def Lexeme.isPlain : Lexeme → Bool
  | ⟨.word _, _⟩ => true
  | ⟨.mark c, _⟩ => c = '-' || c = '+' || c = '.'
  | ⟨.literal, _⟩ => false

/-- The lexemes are cut at the same places as the JSON tokens, and their literals spell the same
strings. A plain token can be any number of plain lexemes. -/
inductive Shows : List Json.Token → List Lexeme → Prop where
  | nil : Shows [] []
  | mark {c : Char} {source : List Char} {tokens : List Json.Token} {lexemes : List Lexeme} :
      Shows tokens lexemes → Shows (.mark c :: tokens) (⟨.mark c, source⟩ :: lexemes)
  | string {content : String} {source : List Char} {tokens : List Json.Token}
      {lexemes : List Lexeme} :
      Lexeme.spelled ⟨.literal, source⟩ = .ok content → Shows tokens lexemes →
        Shows (.string content :: tokens) (⟨.literal, source⟩ :: lexemes)
  | plain {lexeme : Lexeme} {tokens : List Json.Token} {lexemes : List Lexeme} :
      lexeme.isPlain = true → Shows (.plain :: tokens) lexemes →
        Shows (.plain :: tokens) (lexeme :: lexemes)
  | plainEnd {tokens : List Json.Token} {lexemes : List Lexeme} :
      Shows tokens lexemes → Shows (.plain :: tokens) lexemes

/-- One word is as good as another. -/
theorem Shows.word_congr {tokens : List Json.Token} {name : String} {source : List Char}
    {lexemes : List Lexeme} (h : Shows tokens (⟨.word name, source⟩ :: lexemes)) (other : String)
    (place : List Char) : Shows tokens (⟨.word other, place⟩ :: lexemes) := by
  induction tokens with
  | nil => cases h
  | cons token tokens ih =>
      cases h with
      | plain _ hrest => exact .plain rfl hrest
      | plainEnd hrest => exact .plainEnd (ih hrest)

/-- A plain character before plain lexemes goes on with the word that they start with, or is a
lexeme of its own. -/
theorem lexemes_plain {c : Char} {text : List Char} {tokens : List Json.Token}
    {lexs : List Lexeme} (hc : Json.isPlain c = true) (htext : lexemes text = .ok lexs)
    (hshows : Shows (.plain :: tokens) lexs) :
    ∃ more, lexemes (c :: text) = .ok more ∧ Shows (.plain :: tokens) more := by
  by_cases hword : isWordChar c = true
  · obtain ⟨name, source, more, hlexs, rfl | ⟨other, place, rfl⟩⟩ := lexemes_wordChar hword htext
    · exact ⟨_, hlexs, .plain rfl hshows⟩
    · exact ⟨_, hlexs, hshows.word_congr name source⟩
  · have hsign : c = '-' ∨ c = '+' ∨ c = '.' := by
      simp only [Json.isPlain, Bool.or_eq_true, decide_eq_true_eq] at hc
      rcases hc with ((hc | hc) | hc) | hc
      · exact absurd (isWordChar_of_isAlphanum hc) hword
      · exact .inl hc
      · exact .inr (.inl hc)
      · exact .inr (.inr hc)
    have hmark : isMark c = true := by
      rcases hsign with rfl | rfl | rfl <;> decide +kernel
    have hplain : Lexeme.isPlain ⟨.mark c, c :: text⟩ = true := by
      rcases hsign with rfl | rfl | rfl <;> rfl
    rw [lexemes_mark hmark, htext]
    exact ⟨_, rfl, .plain hplain hshows⟩

theorem isMark_of_json : ∀ c ∈ Json.marks, isMark c = true := by
  have hmarks : Json.marks.all isMark = true := by decide +kernel
  exact List.all_eq_true.mp hmarks

theorem isBlank_of_json {c : Char} (h : Json.isBlank c = true) : Text.isBlank c = true := by
  simp only [Json.isBlank, Bool.or_eq_true, decide_eq_true_eq] at h
  rcases h with ((rfl | rfl) | rfl) | rfl <;> decide

/-- The script reader cuts every JSON text, and it cuts it like the JSON reader. -/
theorem lexemes_of_scans {tokens : List Json.Token} {text : List Char}
    (h : Json.Scans tokens text []) : ∃ lexs, lexemes text = .ok lexs ∧ Shows tokens lexs := by
  generalize hrest : ([] : List Char) = rest at h
  induction h with
  | nil text =>
      subst hrest
      exact ⟨[], lexemes_nil, .nil⟩
  | blank hblank _ ih =>
      rw [lexemes_blank (isBlank_of_json hblank)]
      exact ih hrest
  | mark hmark _ ih =>
      obtain ⟨lexs, hlexs, hshows⟩ := ih hrest
      rw [lexemes_mark (isMark_of_json _ hmark), hlexs]
      exact ⟨_, rfl, .mark hshows⟩
  | @string content after text rest tokens hstring _ ih =>
      obtain ⟨lexs, hlexs, hshows⟩ := ih hrest
      have hliteral := readLiteral_of_readString hstring
      have htoken : readToken '"' text = .ok (.literal, after) := by
        simp only [readToken, hliteral]
        rfl
      have hspelled : Lexeme.spelled ⟨.literal, '"' :: text⟩ = .ok (String.ofList content) := by
        simp only [Lexeme.spelled, hliteral]
        rfl
      rw [lexemes_of_visible (by decide) (by decide) htoken, hlexs]
      exact ⟨_, rfl, .string hspelled hshows⟩
  | plain hplain _ ih =>
      obtain ⟨lexs, hlexs, hshows⟩ := ih hrest
      exact lexemes_plain hplain hlexs hshows
  | plainEnd _ ih =>
      obtain ⟨lexs, hlexs, hshows⟩ := ih hrest
      exact ⟨lexs, hlexs, .plainEnd hshows⟩

end Script

end FeatureCompiler
