import FeatureCompiler.Proofs.Script.Escapes
import FeatureCompiler.Proofs.Script.Spelling
import FeatureCompiler.Script.Object

/-!
Code that is passed over: values, parameters, bodies and computed keys. Its brackets are balanced
and its literals and comments complete, and apart from that it is any words and marks. Both ways to
pass over code, character by character inside of a template literal and token by token everywhere
else, come out behind it.
-/

namespace FeatureCompiler.Script

/-- What code is part of. A comma ends a value, but it does not end brackets; of a template literal
only the substitutions are code. -/
inductive Region where
  | value
  | brackets
  | template
deriving Repr, DecidableEq

inductive IsCode : Region → List Char → Prop where
  | nil {region : Region} : IsCode region []
  | trivia {region : Region} {trivia rest : List Char} :
      region ≠ .template → IsTrivia trivia → IsCode region rest → IsCode region (trivia ++ rest)
  | wordChar {region : Region} {c : Char} {rest : List Char} :
      region ≠ .template → isWordChar c = true → IsCode region rest → IsCode region (c :: rest)
  | mark {region : Region} {c : Char} {rest : List Char} :
      region ≠ .template → isMark c = true → closing? c = none → isClosing c = false →
      (c = ',' → region = .brackets) → IsCode region rest → IsCode region (c :: rest)
  | string {region : Region} {quote : Char} {content value rest : List Char} :
      region ≠ .template → quote = '\'' ∨ quote = '"' → Spelled quote content value →
      IsCode region rest → IsCode region (quote :: (content ++ quote :: rest))
  | template {region : Region} {content rest : List Char} :
      region ≠ .template → IsCode .template content → IsCode region rest →
        IsCode region ('`' :: (content ++ '`' :: rest))
  | group {region : Region} {opening close : Char} {inner rest : List Char} :
      region ≠ .template → closing? opening = some close → IsCode .brackets inner →
      IsCode region rest → IsCode region (opening :: (inner ++ close :: rest))
  | raw {c : Char} {rest : List Char} :
      c ≠ '`' → c ≠ '\\' → ¬ (c = '$' ∧ rest.head? = some '{') → IsCode .template rest →
        IsCode .template (c :: rest)
  | hidden {c : Char} {rest : List Char} :
      IsCode .template rest → IsCode .template ('\\' :: c :: rest)
  | substitution {code rest : List Char} :
      IsCode .brackets code → IsCode .template rest →
        IsCode .template ('$' :: '{' :: (code ++ '}' :: rest))

theorem isMark_of_closing? {opening close : Char} (h : closing? opening = some close) :
    isMark opening = true ∧ isMark close = true := by
  unfold closing? at h
  split at h <;> cases h <;>
    exact ⟨isMark_of_mem (by decide), isMark_of_mem (by decide)⟩

theorem isClosing_of_closing? {opening close : Char} (h : closing? opening = some close) :
    closing? close = none ∧ isClosing close = true := by
  unfold closing? at h
  split at h <;> cases h <;> decide

theorem isQuote_of_string {quote : Char} (hquote : quote = '\'' ∨ quote = '"') :
    isQuote quote = true := by
  rcases hquote with rfl | rfl <;> rfl

theorem ne_of_not_isQuote {c : Char} (h : isQuote c = false) :
    ¬ (c = '\'' ∨ c = '"') ∧ c ≠ '`' := by
  simp only [isQuote, Bool.or_eq_false_iff, decide_eq_false_iff_not] at h
  exact ⟨not_or.mpr h.1, h.2⟩

theorem plain_of_isWordChar {c : Char} (hc : isWordChar c = true) :
    closing? c = none ∧ isClosing c = false ∧ isQuote c = false := by
  have hbracket : ∀ other ∈ ['(', ')', '[', ']', '{', '}', ',', '.', ':'], c ≠ other :=
    fun other h => ne_of_isWordChar hc (not_isWordChar_of_isMark (isMark_of_mem h))
  have hquote : ∀ other ∈ ['/', '\'', '"', '`'], c ≠ other :=
    fun other h => ne_of_isWordChar hc (not_isWordChar_of_mem h)
  refine ⟨?_, ?_, ?_⟩
  · unfold closing?
    split <;> simp_all
  · simp_all [isClosing]
  · simp_all [isQuote]

section Characters

variable {close : Char} {outer : List Frame} {text rest : List Char}

theorem skipFrames_bracket (close : Char) (outer : List Frame) (text : List Char) :
    skipFrames (.bracket close :: outer) text = (skipTrivia .blanks text).bind fun
      | [] => .error .unexpectedEnd
      | c :: rest =>
          if c = '`' then skipFrames (.template :: .bracket close :: outer) rest
          else match closing? c with
            | some partner => skipFrames (.bracket partner :: .bracket close :: outer) rest
            | none =>
                if isClosing c then
                  if c = close then skipFrames outer rest else .error (.unbalanced c)
                else if c = '\'' ∨ c = '"' then
                  (readLiteral c rest).bind fun read =>
                    skipFrames (.bracket close :: outer) read.2
                else skipFrames (.bracket close :: outer) rest := by
  rw [skipFrames]
  split
  · next htrivia => rw [htrivia]; rfl
  · next htrivia => rw [htrivia]; rfl
  · next htrivia => rw [htrivia]; rfl
  · next c rest hbacktick htrivia =>
      simp only [htrivia, Except.bind, if_neg hbacktick]
      cases closing? c with
      | some partner => rfl
      | none =>
          dsimp only
          split
          · rfl
          · split
            · split
              · next hliteral => rw [hliteral]
              · next hliteral => rw [hliteral]
            · rfl

/-- What is open further out is closed after what is open inside of it. -/
theorem skipFrames_append (frames outer : List Frame) (text : List Char) :
    skipFrames (frames ++ outer) text = skipFrames frames text >>= skipFrames outer := by
  fun_induction skipFrames frames text with
  | case1 text => rfl
  | case2 frames => rw [List.cons_append, skipFrames]; rfl
  | case3 frames rest ih => rw [List.cons_append, skipFrames, ← List.cons_append, ih]
  | case4 frames rest ih => rw [List.cons_append, skipFrames, ih]
  | case5 frames rest ih =>
      rw [List.cons_append, skipFrames, ← List.cons_append, ← List.cons_append, ih]
  | case6 frames c rest hbackslash hbacktick hplain ih =>
      rw [List.cons_append, skipFrames, ← List.cons_append, ih]
      · exact hbackslash
      · exact hbacktick
      · exact hplain
  | case7 text frames close fault htrivia =>
      rw [List.cons_append, skipFrames_bracket, htrivia]
      rfl
  | case8 text frames close htrivia =>
      rw [List.cons_append, skipFrames_bracket, htrivia]
      rfl
  | case9 text frames close rest htrivia ih =>
      rw [List.cons_append, skipFrames_bracket, htrivia]
      exact ih
  | case10 text frames close c rest hbacktick htrivia partner hopening ih =>
      rw [List.cons_append, skipFrames_bracket, htrivia]
      simp only [Except.bind, if_neg hbacktick, hopening]
      exact ih
  | case11 text frames c rest hbacktick htrivia hopening hclosing ih =>
      rw [List.cons_append, skipFrames_bracket, htrivia]
      simp only [Except.bind, if_neg hbacktick, hopening, hclosing, if_true]
      exact ih
  | case12 text frames close c rest hbacktick htrivia hopening hclosing hclose =>
      rw [List.cons_append, skipFrames_bracket, htrivia]
      simp only [Except.bind, if_neg hbacktick, hopening, hclosing, if_true, if_neg hclose]
      rfl
  | case13 text frames close c rest hbacktick htrivia hopening hclosing hquote fault hliteral =>
      rw [List.cons_append, skipFrames_bracket, htrivia]
      simp only [Except.bind, if_neg hbacktick, hopening, if_neg hclosing, if_pos hquote, hliteral]
      rfl
  | case14 text frames close c rest hbacktick htrivia hopening hclosing hquote value after hliteral
      ih =>
      rw [List.cons_append, skipFrames_bracket, htrivia]
      simp only [Except.bind, if_neg hbacktick, hopening, if_neg hclosing, if_pos hquote, hliteral]
      exact ih
  | case15 text frames close c rest hbacktick htrivia hopening hclosing hquote ih =>
      rw [List.cons_append, skipFrames_bracket, htrivia]
      simp only [Except.bind, if_neg hbacktick, hopening, if_neg hclosing, if_neg hquote]
      exact ih

theorem skipFrames_bracket_congr {other : List Char}
    (h : skipTrivia .blanks text = skipTrivia .blanks other) :
    skipFrames (.bracket close :: outer) text = skipFrames (.bracket close :: outer) other := by
  rw [skipFrames_bracket, h, ← skipFrames_bracket]

theorem skipFrames_bracket_char {c : Char} (hblank : Text.isBlank c = false) (hslash : c ≠ '/')
    (hbacktick : c ≠ '`') (hopening : closing? c = none) (hclosing : isClosing c = false)
    (hquote : ¬ (c = '\'' ∨ c = '"')) :
    skipFrames (.bracket close :: outer) (c :: rest) =
      skipFrames (.bracket close :: outer) rest := by
  rw [skipFrames_bracket, skipTrivia_of_visible hblank hslash]
  simp only [Except.bind, if_neg hbacktick, hopening, hclosing, Bool.false_eq_true, if_false,
    if_neg hquote]

theorem skipFrames_bracket_mark {c : Char} (hmark : isMark c = true)
    (hopening : closing? c = none) (hclosing : isClosing c = false) :
    skipFrames (.bracket close :: outer) (c :: rest) =
      skipFrames (.bracket close :: outer) rest := by
  simp only [isMark, Bool.and_eq_true, Bool.not_eq_true', decide_eq_true_eq, ne_eq] at hmark
  obtain ⟨⟨⟨⟨⟨hblank, -⟩, hslash⟩, hsingle⟩, hdouble⟩, hbacktick⟩ := hmark
  exact skipFrames_bracket_char hblank hslash hbacktick hopening hclosing
    (not_or.mpr ⟨hsingle, hdouble⟩)

theorem skipFrames_bracket_word {c : Char} (hc : isWordChar c = true) :
    skipFrames (.bracket close :: outer) (c :: rest) =
      skipFrames (.bracket close :: outer) rest := by
  obtain ⟨hblank, hslash⟩ := visible_of_isWordChar hc
  obtain ⟨hopening, hclosing, hquote⟩ := plain_of_isWordChar hc
  obtain ⟨hstring, hbacktick⟩ := ne_of_not_isQuote hquote
  exact skipFrames_bracket_char hblank hslash hbacktick hopening hclosing hstring

theorem skipFrames_bracket_string {quote : Char} {content value : List Char}
    (hquote : quote = '\'' ∨ quote = '"') (hcontent : Spelled quote content value) :
    skipFrames (.bracket close :: outer) (quote :: (content ++ quote :: rest)) =
      skipFrames (.bracket close :: outer) rest := by
  have hvisible : Text.isBlank quote = false ∧ quote ≠ '/' ∧ quote ≠ '`' ∧
      closing? quote = none ∧ isClosing quote = false := by
    rcases hquote with rfl | rfl <;> decide
  obtain ⟨hblank, hslash, hbacktick, hopening, hclosing⟩ := hvisible
  rw [skipFrames_bracket, skipTrivia_of_visible hblank hslash]
  simp only [Except.bind, if_neg hbacktick, hopening, hclosing, Bool.false_eq_true, if_false,
    if_pos hquote, hcontent.readLiteral_eq (isQuote_of_string hquote)]

theorem skipFrames_bracket_template :
    skipFrames (.bracket close :: outer) ('`' :: rest) =
      skipFrames (.template :: .bracket close :: outer) rest := by
  rw [skipFrames_bracket, skipTrivia_of_visible (by decide) (by decide)]
  rfl

theorem skipFrames_bracket_open {opening partner : Char} (h : closing? opening = some partner) :
    skipFrames (.bracket close :: outer) (opening :: rest) =
      skipFrames (.bracket partner :: .bracket close :: outer) rest := by
  obtain ⟨hblank, hslash⟩ := visible_of_isMark (isMark_of_closing? h).1
  have hbacktick : opening ≠ '`' := by
    rintro rfl
    cases h
  rw [skipFrames_bracket, skipTrivia_of_visible hblank hslash]
  simp only [Except.bind, if_neg hbacktick, h]

theorem skipFrames_bracket_close {opening : Char} (h : closing? opening = some close) :
    skipFrames (.bracket close :: outer) (close :: rest) = skipFrames outer rest := by
  obtain ⟨hopening, hclosing⟩ := isClosing_of_closing? h
  obtain ⟨hblank, hslash⟩ := visible_of_isMark (isMark_of_closing? h).2
  have hbacktick : close ≠ '`' := by
    rintro rfl
    cases hclosing
  rw [skipFrames_bracket, skipTrivia_of_visible hblank hslash]
  simp only [Except.bind, if_neg hbacktick, hopening, hclosing, if_true]

/-- Both kinds of open frames are as they were behind the code. -/
def Region.IsPassed : Region → List Char → Prop
  | .template, text => ∀ outer rest,
      skipFrames (.template :: outer) (text ++ '`' :: rest) = skipFrames outer rest
  | _, text => ∀ close outer rest,
      skipFrames (.bracket close :: outer) (text ++ rest) =
        skipFrames (.bracket close :: outer) rest

theorem Region.isPassed_iff {region : Region} (hregion : region ≠ .template) :
    region.IsPassed text ↔ Region.brackets.IsPassed text := by
  cases region with
  | template => exact absurd rfl hregion
  | value => rfl
  | brackets => rfl

theorem IsCode.isPassed {region : Region} (h : IsCode region text) : region.IsPassed text := by
  induction h with
  | @nil region =>
      cases region with
      | template =>
          intro outer rest
          rw [List.nil_append, skipFrames]
      | value | brackets => exact fun _ _ _ => rfl
  | trivia hregion htrivia _ ih =>
      rw [Region.isPassed_iff hregion] at ih ⊢
      intro close outer rest
      rw [List.append_assoc, skipFrames_bracket_congr (htrivia.skip _)]
      exact ih close outer rest
  | wordChar hregion hc _ ih =>
      rw [Region.isPassed_iff hregion] at ih ⊢
      intro close outer rest
      rw [List.cons_append, skipFrames_bracket_word hc]
      exact ih close outer rest
  | mark hregion hmark hopening hclosing _ _ ih =>
      rw [Region.isPassed_iff hregion] at ih ⊢
      intro close outer rest
      rw [List.cons_append, skipFrames_bracket_mark hmark hopening hclosing]
      exact ih close outer rest
  | string hregion hquote hcontent _ ih =>
      rw [Region.isPassed_iff hregion] at ih ⊢
      intro close outer rest
      rw [List.cons_append, List.append_assoc, List.cons_append,
        skipFrames_bracket_string hquote hcontent]
      exact ih close outer rest
  | template hregion _ _ ihcontent ih =>
      rw [Region.isPassed_iff hregion] at ih ⊢
      intro close outer rest
      rw [List.cons_append, List.append_assoc, List.cons_append, skipFrames_bracket_template,
        ihcontent]
      exact ih close outer rest
  | group hregion hopening _ _ ihinner ih =>
      rw [Region.isPassed_iff hregion] at ih ⊢
      intro close outer rest
      rw [List.cons_append, List.append_assoc, List.cons_append,
        skipFrames_bracket_open hopening, ihinner, skipFrames_bracket_close hopening]
      exact ih close outer rest
  | @raw c text hbacktick hbackslash hplain _ ih =>
      intro outer rest
      rw [List.cons_append, skipFrames_plain hbackslash hbacktick]
      · exact ih outer rest
      · rintro ⟨hdollar, hhead⟩
        cases text with
        | nil => cases hhead
        | cons d text => exact hplain ⟨hdollar, hhead⟩
  | hidden _ ih =>
      intro outer rest
      rw [List.cons_append, List.cons_append, skipFrames_hidden]
      exact ih outer rest
  | substitution _ _ ihcode ih =>
      intro outer rest
      rw [List.cons_append, List.cons_append, List.append_assoc, List.cons_append, skipFrames,
        ihcode, skipFrames_bracket_close (by rfl : closing? '{' = some '}')]
      exact ih outer rest

end Characters

section Tokens

variable {region : Region} {lexs rest : List Lexeme}

/-- Passing over words and literals takes no notice of them. -/
theorem skipGroup_skip (closers : List Char) {lexeme : Lexeme} (h : ∀ c, lexeme.token ≠ .mark c)
    (rest : List Lexeme) : skipGroup closers (lexeme :: rest) = skipGroup closers rest := by
  rw [skipGroup]
  rintro c source rfl
  exact h c rfl

theorem skipValue_skip (closers : List Char) {lexeme : Lexeme} (h : ∀ c, lexeme.token ≠ .mark c)
    (rest : List Lexeme) : skipValue closers (lexeme :: rest) = skipValue closers rest := by
  rw [skipValue]
  rintro c source rfl
  exact h c rfl

/-- The second lexemes stand behind code at the start of the first. Whatever is open there is still
open here, and a comma in between is passed over only if something is. -/
structure Skips (region : Region) (lexs rest : List Lexeme) : Prop where
  value : ∀ closers, (closers = [] → region = .value) →
    skipValue closers lexs = skipValue closers rest
  group : ∀ closers, closers ≠ [] → skipGroup closers lexs = skipGroup closers rest

namespace Skips

theorem refl (region : Region) (lexs : List Lexeme) : Skips region lexs lexs :=
  ⟨fun _ _ => rfl, fun _ _ => rfl⟩

theorem skip {lexeme : Lexeme} (hlexeme : ∀ c, lexeme.token ≠ .mark c)
    (h : Skips region lexs rest) : Skips region (lexeme :: lexs) rest where
  value closers hclosers := (skipValue_skip closers hlexeme lexs).trans (h.value closers hclosers)
  group closers hclosers := (skipGroup_skip closers hlexeme lexs).trans (h.group closers hclosers)

/-- What is taken no notice of can as well be missing. -/
theorem of_skip {lexeme : Lexeme} (hlexeme : ∀ c, lexeme.token ≠ .mark c)
    (h : Skips region (lexeme :: lexs) rest) : Skips region lexs rest where
  value closers hclosers :=
    (skipValue_skip closers hlexeme lexs).symm.trans (h.value closers hclosers)
  group closers hclosers :=
    (skipGroup_skip closers hlexeme lexs).symm.trans (h.group closers hclosers)

theorem mark {c : Char} (source : List Char) (hopening : closing? c = none)
    (hclosing : isClosing c = false) (hcomma : c = ',' → region = .brackets)
    (h : Skips region lexs rest) : Skips region (⟨.mark c, source⟩ :: lexs) rest where
  value closers hclosers := by
    rw [← h.value closers hclosers]
    cases closers with
    | nil =>
        have hend : ¬ (c = ',' ∨ c = '}') := by
          rintro (rfl | rfl)
          · exact absurd ((hclosers rfl).symm.trans (hcomma rfl)) (by decide)
          · cases hclosing
        simp [skipValue, hopening, hclosing, hend]
    | cons close outer => simp [skipValue, hopening, hclosing]
  group closers hclosers := by
    rw [← h.group closers hclosers]
    simp [skipGroup, hopening, hclosing]

theorem brackets {opening close : Char} {middle : List Lexeme} (first last : List Char)
    (hopening : closing? opening = some close)
    (hinner : Skips .brackets lexs (⟨.mark close, last⟩ :: middle))
    (h : Skips region middle rest) : Skips region (⟨.mark opening, first⟩ :: lexs) rest where
  value closers hclosers := by
    obtain ⟨hnone, hclosing⟩ := isClosing_of_closing? hopening
    calc
      skipValue closers (⟨.mark opening, first⟩ :: lexs) = skipValue (close :: closers) lexs := by
        simp [skipValue, hopening]
      _ = skipValue (close :: closers) (⟨.mark close, last⟩ :: middle) :=
        hinner.value _ (by simp)
      _ = skipValue closers middle := by simp [skipValue, hnone, hclosing]
      _ = skipValue closers rest := h.value closers hclosers
  group closers hclosers := by
    obtain ⟨hnone, hclosing⟩ := isClosing_of_closing? hopening
    calc
      skipGroup closers (⟨.mark opening, first⟩ :: lexs) = skipGroup (close :: closers) lexs := by
        simp [skipGroup, hopening]
      _ = skipGroup (close :: closers) (⟨.mark close, last⟩ :: middle) :=
        hinner.group _ (List.cons_ne_nil _ _)
      _ = skipGroup closers middle := by simp [skipGroup, hnone, hclosing, hclosers]
      _ = skipGroup closers rest := h.group closers hclosers

end Skips

theorem visible_of_isQuote {quote : Char} (hquote : isQuote quote = true) :
    Text.isBlank quote = false ∧ quote ≠ '/' := by
  simp only [isQuote, Bool.or_eq_true, decide_eq_true_eq] at hquote
  rcases hquote with (rfl | rfl) | rfl <;> decide

theorem readToken_spelled {quote : Char} {content value : List Char}
    (hquote : isQuote quote = true) (hcontent : Spelled quote content value) (rest : List Char) :
    readToken quote (content ++ quote :: rest) = .ok (.literal, rest) := by
  by_cases hbacktick : quote = '`'
  · subst hbacktick
    have hskip : skipFrames [.template] (content ++ '`' :: rest) = .ok rest := by
      rw [hcontent.skipFrames_eq, skipFrames]
    simp only [readToken, hskip]
    rfl
  · have hstring : quote = '\'' ∨ quote = '"' := by
      simpa [isQuote, hbacktick] using hquote
    rw [readToken, if_pos hstring, hcontent.readLiteral_eq hquote]
    rfl

theorem IsCode.readToken_eq {content : List Char} (hcontent : IsCode .template content)
    (rest : List Char) : readToken '`' (content ++ '`' :: rest) = .ok (.literal, rest) := by
  have hskip : skipFrames [.template] (content ++ '`' :: rest) = .ok rest := by
    rw [hcontent.isPassed, skipFrames]
  simp only [readToken, hskip]
  rfl

/-- A text that starts with code has the tokens of the code before those of what follows. -/
theorem IsCode.exists_lexemes {text after : List Char} (h : IsCode region text)
    (hregion : region ≠ .template) (hafter : lexemes after = .ok rest) :
    ∃ lexs, lexemes (text ++ after) = .ok lexs ∧ Skips region lexs rest := by
  induction h generalizing after rest with
  | nil => exact ⟨rest, hafter, .refl _ rest⟩
  | trivia _ htrivia _ ih =>
      obtain ⟨lexs, hlexs, hskips⟩ := ih hregion hafter
      refine ⟨lexs, ?_, hskips⟩
      rw [List.append_assoc, lexemes_congr (htrivia.skip _), hlexs]
  | wordChar _ hc _ ih =>
      obtain ⟨lexs, hlexs, hskips⟩ := ih hregion hafter
      obtain ⟨name, source, more, hmore, hword⟩ := lexemes_wordChar hc hlexs
      refine ⟨_, hmore, ?_⟩
      -- The character goes on with the first word of what follows it, if there is one.
      rcases hword with rfl | ⟨other, place, rfl⟩
      · exact hskips.skip (by simp)
      · exact (hskips.of_skip (by simp)).skip (by simp)
  | mark _ hmark hopening hclosing hcomma _ ih =>
      obtain ⟨lexs, hlexs, hskips⟩ := ih hregion hafter
      rw [List.cons_append, lexemes_mark hmark, hlexs]
      exact ⟨_, rfl, hskips.mark _ hopening hclosing hcomma⟩
  | string _ hquote hcontent _ ih =>
      obtain ⟨lexs, hlexs, hskips⟩ := ih hregion hafter
      have hisQuote : isQuote _ = true := isQuote_of_string hquote
      obtain ⟨hblank, hslash⟩ := visible_of_isQuote hisQuote
      rw [List.cons_append, List.append_assoc, List.cons_append,
        lexemes_of_visible hblank hslash (readToken_spelled hisQuote hcontent _), hlexs]
      exact ⟨_, rfl, hskips.skip (by simp)⟩
  | template _ hcontent _ _ ih =>
      obtain ⟨lexs, hlexs, hskips⟩ := ih hregion hafter
      rw [List.cons_append, List.append_assoc, List.cons_append,
        lexemes_of_visible (by decide) (by decide) (hcontent.readToken_eq _), hlexs]
      exact ⟨_, rfl, hskips.skip (by simp)⟩
  | @group _ opening close inner text _ hopening _ _ ihinner ih =>
      obtain ⟨middle, hmiddle, hskips⟩ := ih hregion hafter
      obtain ⟨hmark, hclose⟩ := isMark_of_closing? hopening
      have hlast : lexemes (close :: (text ++ after)) =
          .ok (⟨.mark close, close :: (text ++ after)⟩ :: middle) := by
        rw [lexemes_mark hclose, hmiddle]
        rfl
      obtain ⟨lexs, hlexs, hinner⟩ := ihinner (by decide) hlast
      rw [List.cons_append, List.append_assoc, List.cons_append, lexemes_mark hmark, hlexs]
      exact ⟨_, rfl, hinner.brackets _ _ hopening hskips⟩
  | raw | hidden | substitution => exact absurd rfl hregion

end Tokens

end FeatureCompiler.Script
