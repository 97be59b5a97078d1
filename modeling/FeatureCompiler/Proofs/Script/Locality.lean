import FeatureCompiler.Proofs.Script.Code

/-!
A token is read off its own characters. Whatever stands behind it can be replaced by something else,
as long as that does not go on with a word, and the same token is read.
-/

namespace FeatureCompiler.Script

theorem StartsVisibly.append_congr {c : Char} {taken rest : List Char}
    (h : StartsVisibly (c :: (taken ++ rest))) (hslash : c = '/' → taken ≠ [])
    (other : List Char) : StartsVisibly (c :: (taken ++ other)) := by
  obtain ⟨hblank, hnext⟩ := h
  refine ⟨hblank, ?_⟩
  intro hc
  cases taken with
  | nil => exact absurd rfl (hslash hc)
  | cons d taken => exact hnext hc

/-- The characters up to `rest` close the frames, whatever comes after them. -/
structure Closes (frames : List Frame) (text rest : List Char) (taken : List Char) : Prop where
  text_eq : text = taken ++ rest
  ne_nil : frames ≠ [] → taken ≠ []
  skip : ∀ other, skipFrames frames (taken ++ other) = .ok other

namespace Closes

variable {frames outer : List Frame} {text rest taken : List Char}

theorem hidden {c : Char} (h : Closes (.template :: outer) text rest taken) :
    Closes (.template :: outer) ('\\' :: c :: text) rest ('\\' :: c :: taken) where
  text_eq := by rw [h.text_eq]; rfl
  ne_nil _ := List.cons_ne_nil _ _
  skip other := (skipFrames_hidden c outer _).trans (h.skip other)

theorem backtick (h : Closes outer text rest taken) :
    Closes (.template :: outer) ('`' :: text) rest ('`' :: taken) where
  text_eq := by rw [h.text_eq]; rfl
  ne_nil _ := List.cons_ne_nil _ _
  skip other := by
    rw [List.cons_append, skipFrames]
    exact h.skip other

theorem substitution (h : Closes (.bracket '}' :: .template :: outer) text rest taken) :
    Closes (.template :: outer) ('$' :: '{' :: text) rest ('$' :: '{' :: taken) where
  text_eq := by rw [h.text_eq]; rfl
  ne_nil _ := List.cons_ne_nil _ _
  skip other := by
    rw [List.cons_append, List.cons_append, skipFrames]
    exact h.skip other

theorem plain {c : Char} (hbackslash : c ≠ '\\') (hbacktick : c ≠ '`')
    (hplain : ¬ (c = '$' ∧ text.head? = some '{'))
    (h : Closes (.template :: outer) text rest taken) :
    Closes (.template :: outer) (c :: text) rest (c :: taken) where
  text_eq := by rw [h.text_eq]; rfl
  ne_nil _ := List.cons_ne_nil _ _
  skip other := by
    rw [List.cons_append, skipFrames_plain hbackslash hbacktick]
    · exact h.skip other
    · rw [h.text_eq] at hplain
      -- The next character is one of those that close the literal.
      cases taken with
      | nil => exact absurd rfl (h.ne_nil (List.cons_ne_nil _ _))
      | cons d taken => exact hplain

/-- Blanks and comments come first inside of brackets. -/
theorem behind {close c : Char} {tail : List Char}
    (htrivia : skipTrivia .blanks text = .ok (c :: tail))
    (hslash : c = '/' → taken ≠ []) (htail : tail = taken ++ rest)
    (hskip : ∀ other, StartsVisibly (c :: (taken ++ other)) →
      skipFrames (.bracket close :: outer) (c :: (taken ++ other)) = .ok other) :
    ∃ taken, Closes (.bracket close :: outer) text rest taken := by
  subst htail
  cases (skipTrivia_sound htrivia : SkipsTo text _) with
  | commentOpen _ hnil => cases hnil
  | @closed trivia histrivia htext hvisible =>
      subst htext
      refine ⟨trivia ++ c :: taken, by simp, by simp, ?_⟩
      intro other
      rw [List.append_assoc, List.cons_append, skipFrames_bracket_congr (histrivia.skip _)]
      exact hskip other (hvisible.append_congr hslash other)

end Closes

theorem exists_closes {frames : List Frame} {text rest : List Char}
    (h : skipFrames frames text = .ok rest) : ∃ taken, Closes frames text rest taken := by
  fun_induction skipFrames frames text with
  | case1 text =>
      cases h
      exact ⟨[], rfl, fun h => absurd rfl h, fun other => by rw [List.nil_append, skipFrames]⟩
  | case2 | case7 | case8 | case12 | case13 => cases h
  | case3 outer text ih =>
      obtain ⟨taken, htaken⟩ := ih h
      cases text with
      | nil =>
          have hnil := List.append_eq_nil_iff.mp htaken.text_eq.symm
          exact absurd hnil.1 (htaken.ne_nil (List.cons_ne_nil _ _))
      | cons c text => exact ⟨_, htaken.hidden⟩
  | case4 outer text ih =>
      obtain ⟨taken, htaken⟩ := ih h
      exact ⟨_, htaken.backtick⟩
  | case5 outer text ih =>
      obtain ⟨taken, htaken⟩ := ih h
      exact ⟨_, htaken.substitution⟩
  | case6 outer c text hbackslash hbacktick hplain ih =>
      obtain ⟨taken, htaken⟩ := ih h
      refine ⟨_, htaken.plain hbackslash hbacktick ?_⟩
      rintro ⟨hdollar, hhead⟩
      obtain ⟨more, hmore⟩ := List.head?_eq_some_iff.mp hhead
      exact hplain more hdollar hmore
  | case9 text outer close tail htrivia ih =>
      obtain ⟨taken, htaken⟩ := ih h
      apply Closes.behind htrivia (fun hslash => absurd hslash (by decide)) htaken.text_eq
      intro other _
      rw [skipFrames_bracket_template]
      exact htaken.skip other
  | case10 text outer close c tail hbacktick htrivia partner hopening ih =>
      obtain ⟨taken, htaken⟩ := ih h
      apply Closes.behind htrivia (fun _ => htaken.ne_nil (List.cons_ne_nil _ _)) htaken.text_eq
      intro other _
      rw [skipFrames_bracket_open hopening]
      exact htaken.skip other
  | case11 text outer c tail hbacktick htrivia hopening hclosing ih =>
      obtain ⟨taken, htaken⟩ := ih h
      apply Closes.behind htrivia ?_ htaken.text_eq
      · intro other hvisible
        rw [skipFrames_bracket, skipTrivia_of_startsVisibly hvisible]
        simp only [Except.bind, if_neg hbacktick, hopening, hclosing, if_true, htaken.skip]
      · rintro rfl
        cases hclosing
  | case14 text outer close c tail hbacktick htrivia hopening hclosing hquote value after hliteral
      ih =>
      obtain ⟨taken, htaken⟩ := ih h
      obtain ⟨content, hcontent, rfl⟩ := spelled_of_readLiteral (isQuote_of_string hquote) hliteral
      have htail : content ++ c :: after = (content ++ c :: taken) ++ rest := by
        rw [htaken.text_eq, List.append_assoc, List.cons_append]
      apply Closes.behind htrivia (fun _ => by simp) htail
      intro other _
      rw [List.append_assoc, List.cons_append, skipFrames_bracket_string hquote hcontent]
      exact htaken.skip other
  | case15 text outer close c tail hbacktick htrivia hopening hclosing hquote ih =>
      obtain ⟨taken, htaken⟩ := ih h
      apply Closes.behind htrivia (fun _ => htaken.ne_nil (List.cons_ne_nil _ _)) htaken.text_eq
      intro other hvisible
      rw [skipFrames_bracket, skipTrivia_of_startsVisibly hvisible]
      simp only [Except.bind, if_neg hbacktick, hopening, if_neg hclosing, if_neg hquote]
      exact htaken.skip other

theorem not_isWordChar_of_isQuote {quote : Char} (hquote : isQuote quote = true) :
    ¬ isWordChar quote = true := by
  simp only [isQuote, Bool.or_eq_true, decide_eq_true_eq] at hquote
  rw [Bool.not_eq_true]
  apply not_isWordChar_of_mem
  rcases hquote with (rfl | rfl) | rfl <;> decide

/-- What stands behind a word ends it. -/
def Follows (c : Char) (rest : List Char) : Prop :=
  isWordChar c = true → rest.head?.any isWordChar = false

theorem readToken_local {c : Char} {text rest : List Char} {token : Token}
    (h : readToken c text = .ok (token, rest)) :
    Follows c rest ∧ ∃ taken, text = taken ++ rest ∧
      ∀ other, Follows c other → readToken c (taken ++ other) = .ok (token, other) := by
  unfold readToken at h
  split at h
  · next hstring =>
      obtain ⟨⟨value, after⟩, hread, h⟩ := bind_eq_ok h
      cases h
      have hquote := isQuote_of_string hstring
      obtain ⟨content, hcontent, rfl⟩ := spelled_of_readLiteral hquote hread
      refine ⟨fun hword => absurd hword (not_isWordChar_of_isQuote hquote), content ++ [c], ?_, ?_⟩
      · simp
      · intro other _
        rw [List.append_assoc, List.singleton_append]
        exact readToken_spelled hquote hcontent other
  · next hstring =>
      split at h
      · next hbacktick =>
          subst hbacktick
          obtain ⟨after, hskip, h⟩ := bind_eq_ok h
          cases h
          obtain ⟨taken, htaken⟩ := exists_closes hskip
          refine ⟨fun hword => absurd hword (not_isWordChar_of_isQuote rfl), taken,
            htaken.text_eq, ?_⟩
          intro other _
          simp only [readToken, htaken.skip]
          rfl
      · next hbacktick =>
          split at h
          · next hword =>
              cases h
              refine ⟨fun _ => ?_, text.takeWhile isWordChar,
                List.takeWhile_append_dropWhile.symm, ?_⟩
              · have hhead := List.head?_dropWhile_not isWordChar text
                revert hhead
                cases (text.dropWhile isWordChar).head? <;> simp
              · intro other hother
                apply readToken_word _ (hother hword)
                simp only [isWord, List.isEmpty_cons, Bool.not_false, Bool.true_and,
                  List.all_cons, hword, List.all_takeWhile]
          · next hword =>
              cases h
              refine ⟨fun h => absurd h hword, [], rfl, ?_⟩
              intro other _
              simp [readToken, hstring, hbacktick, hword]

/-- The first token of a text, what stands before it, and what stands behind it. -/
structure FirstToken (text trivia : List Char) (c : Char) (taken rest : List Char) (token : Token) :
    Prop where
  text_eq : text = trivia ++ c :: (taken ++ rest)
  isTrivia : IsTrivia trivia
  startsVisibly : StartsVisibly (c :: (taken ++ rest))
  readToken_eq : readToken c (taken ++ rest) = .ok (token, rest)

/-- A text has no tokens, or a first one before the others. -/
theorem lexemes_cases {text : List Char} {lexs : List Lexeme} (h : lexemes text = .ok lexs) :
    (lexs = [] ∧ SkipsTo text []) ∨
      ∃ trivia c taken rest token more, FirstToken text trivia c taken rest token ∧
        lexemes rest = .ok more ∧ lexs = ⟨token, c :: (taken ++ rest)⟩ :: more := by
  rw [lexemes_eq] at h
  obtain ⟨visible, htrivia, h⟩ := bind_eq_ok h
  have hskips : SkipsTo text visible := skipTrivia_sound htrivia
  cases visible with
  | nil =>
      cases h
      exact .inl ⟨rfl, hskips⟩
  | cons c tail =>
      obtain ⟨⟨token, rest⟩, htoken, h⟩ := bind_eq_ok h
      obtain ⟨-, taken, rfl, -⟩ := readToken_local htoken
      cases hmore : lexemes rest with
      | error fault =>
          simp only [hmore] at h
          cases h
      | ok more =>
          simp only [hmore] at h
          cases h
          cases hskips with
          | commentOpen _ hnil => cases hnil
          | @closed trivia histrivia htext hvisible =>
              exact .inr ⟨trivia, c, taken, rest, token, more,
                ⟨htext, histrivia, hvisible, htoken⟩, hmore, rfl⟩

/-- Another text that starts with the same character, or with a blank. -/
def SameStart (rest other : List Char) : Prop :=
  other.head? = rest.head? ∨ ∃ c, Text.isBlank c = true ∧ other.head? = some c

namespace FirstToken

variable {text trivia taken rest other : List Char} {c : Char} {token : Token}

theorem readToken_other (h : FirstToken text trivia c taken rest token)
    (hother : SameStart rest other) : readToken c (taken ++ other) = .ok (token, other) := by
  obtain ⟨hfollows, found, hfound, hread⟩ := readToken_local h.readToken_eq
  have htaken : taken = found := List.append_cancel_right hfound
  subst htaken
  apply hread other
  intro hword
  rcases hother with hhead | ⟨d, hblank, hhead⟩
  · rw [hhead]
    exact hfollows hword
  · rw [hhead]
    exact not_isWordChar_of_isBlank hblank

theorem startsVisibly_other (h : FirstToken text trivia c taken rest token)
    (hother : SameStart rest other) : StartsVisibly (c :: (taken ++ other)) := by
  obtain ⟨hblank, hnext⟩ := h.startsVisibly
  refine ⟨hblank, ?_⟩
  intro hslash d hd
  cases taken with
  | cons e taken => exact hnext hslash d hd
  | nil =>
      rcases hother with hhead | ⟨e, hisBlank, hhead⟩
      · exact hnext hslash d (hhead ▸ hd)
      · have hde : e = d := Option.some.inj (hhead.symm.trans hd)
        subst hde
        constructor <;> rintro rfl <;> cases hisBlank

/-- The same token is read, and then the tokens of what stands behind it now. -/
theorem lexemes_other (h : FirstToken text trivia c taken rest token)
    (hother : SameStart rest other) {more : List Lexeme} (hmore : lexemes other = .ok more) :
    lexemes (trivia ++ c :: (taken ++ other)) = .ok (⟨token, c :: (taken ++ other)⟩ :: more) := by
  rw [lexemes_congr (h.isTrivia.skip _), lexemes_eq,
    skipTrivia_of_startsVisibly (h.startsVisibly_other hother)]
  simp only [Except.bind, h.readToken_other hother, hmore]
  rfl

end FirstToken

end FeatureCompiler.Script
