import FeatureCompiler.Proofs.Script.Brackets
import FeatureCompiler.Proofs.Script.Rereading
import FeatureCompiler.Proofs.Script.Walk

/-!
An object literal read off its characters and off its tokens. The two readings go along one text and
never lose each other: wherever one of them stands, the lexemes that are left to it are those of the
text that is left to the other. They come to the same result, or stop with the same fault.
-/

namespace FeatureCompiler.Script

/-- Two readings have results that are related, or the same fault. -/
abbrev Matches {α β : Type} (related : α → β → Prop) : Except Fault α → Except Fault β → Prop :=
  OutcomeRel Eq related

/-- These are the lexemes of the text. -/
def Lexed (text : List Char) (lexs : List Lexeme) : Prop :=
  lexemes text = .ok lexs

/-- Two readings found the same, and stand at the same place. -/
def SameFound {α : Type} (walked : α × List Char) (read : α × List Lexeme) : Prop :=
  walked.1 = read.1 ∧ Lexed walked.2 read.2

/-- The first token of a text that starts with neither blanks nor a comment. -/
inductive Begins : List Char → List Lexeme → Prop where
  | nil : Begins [] []
  | word {c : Char} {rest : List Char} {more : List Lexeme} :
      isWordChar c = true → Lexed (rest.dropWhile isWordChar) more →
      Begins (c :: rest)
        (⟨.word (String.ofList (c :: rest.takeWhile isWordChar)), c :: rest⟩ :: more)
  | literal {c : Char} {rest after : List Char} {more : List Lexeme} :
      isQuote c = true → passOver c rest = .ok after → Lexed after more →
      Begins (c :: rest) (⟨.literal, c :: rest⟩ :: more)
  | mark {c : Char} {rest : List Char} {more : List Lexeme} :
      isWordChar c = false → isQuote c = false → StartsVisibly (c :: rest) → Lexed rest more →
      Begins (c :: rest) (⟨.mark c, c :: rest⟩ :: more)

theorem code_of_isQuote {c : Char} (h : isQuote c = true) :
    closing? c = none ∧ isClosing c = false := by
  simp only [isQuote, Bool.or_eq_true, decide_eq_true_eq] at h
  rcases h with (rfl | rfl) | rfl <;> decide

theorem readToken_of_isQuote {c : Char} (h : isQuote c = true) (rest : List Char) :
    readToken c rest = passOver c rest >>= fun after => .ok (.literal, after) := by
  obtain ⟨hopening, hclosing⟩ := code_of_isQuote h
  simp only [isQuote, Bool.or_eq_true, decide_eq_true_eq] at h
  rw [readToken, passOver, hopening, hclosing]
  dsimp only
  split
  · cases readLiteral c rest <;> rfl
  · next hstring =>
      rw [if_pos (h.resolve_left hstring), if_pos (h.resolve_left hstring)]
      cases skipFrames [.template] rest <;> rfl

section Places

variable {text visible : List Char} {lexs : List Lexeme}

theorem Lexed.behindTrivia (h : Lexed text lexs) (htrivia : skipTrivia .blanks text = .ok visible) :
    Lexed visible lexs :=
  (lexemes_congr (skipTrivia_visible htrivia)).symm.trans h

theorem Lexed.exists_begins (h : Lexed text lexs) :
    ∃ visible, skipTrivia .blanks text = .ok visible ∧ Begins visible lexs := by
  rw [Lexed, lexemes_eq] at h
  obtain ⟨visible, htrivia, h⟩ := bind_eq_ok h
  refine ⟨visible, htrivia, ?_⟩
  have hvisible := startsVisibly_of_skipTrivia htrivia
  cases visible with
  | nil =>
      cases h
      exact .nil
  | cons c rest =>
      obtain ⟨⟨token, after⟩, htoken, h⟩ := bind_eq_ok h
      cases hmore : lexemes after with
      | error fault =>
          simp only [hmore] at h
          cases h
      | ok more =>
          simp only [hmore] at h
          cases h
          by_cases hquote : isQuote c = true
          · rw [readToken_of_isQuote hquote] at htoken
            obtain ⟨_, hpass, htoken⟩ := bind_eq_ok htoken
            cases htoken
            exact .literal hquote hpass hmore
          · by_cases hword : isWordChar c = true
            · rw [readToken_wordChar hword] at htoken
              cases htoken
              exact .word hword hmore
            · simp only [Bool.not_eq_true] at hquote hword
              obtain ⟨hstring, hbacktick⟩ := ne_of_not_isQuote hquote
              simp only [readToken, if_neg hstring, if_neg hbacktick, hword] at htoken
              cases htoken
              exact .mark hword hquote hvisible hmore

end Places

section Skipping

variable {text : List Char} {lexs : List Lexeme}

theorem skipFrames_bracket_literal {close c : Char} {outer : List Frame} {rest : List Char}
    (hquote : isQuote c = true) :
    skipFrames (.bracket close :: outer) (c :: rest) =
      passOver c rest >>= skipFrames (.bracket close :: outer) := by
  obtain ⟨hopening, hclosing⟩ := code_of_isQuote hquote
  simp only [isQuote, Bool.or_eq_true, decide_eq_true_eq] at hquote
  rcases hquote with hstring | rfl
  · have hvisible : Text.isBlank c = false ∧ c ≠ '/' ∧ c ≠ '`' := by
      rcases hstring with rfl | rfl <;> decide
    obtain ⟨hblank, hslash, hbacktick⟩ := hvisible
    rw [skipFrames_bracket, skipTrivia_of_visible hblank hslash]
    simp only [Except.bind, passOver, if_neg hbacktick, hopening, hclosing, Bool.false_eq_true,
      if_false, if_pos hstring]
    cases readLiteral c rest <;> rfl
  · rw [skipFrames_bracket_template]
    exact skipFrames_append [.template] (.bracket close :: outer) rest

/-- Brackets that are open are closed by the same bracket in both readings. -/
theorem Lexed.closers (h : Lexed text lexs) (close : Char) (outer : List Char) :
    Matches Lexed (skipFrames ((close :: outer).map .bracket) text)
      (skipGroup (close :: outer) lexs) := by
  induction lexs generalizing text close outer with
  | nil =>
      obtain ⟨visible, htrivia, hbegins⟩ := h.exists_begins
      cases hbegins
      rw [List.map_cons, skipFrames_bracket, htrivia]
      exact .error rfl
  | cons lexeme lexs ih =>
      obtain ⟨visible, htrivia, hbegins⟩ := h.exists_begins
      rw [List.map_cons, skipFrames_bracket_congr (skipTrivia_visible htrivia)]
      cases hbegins with
      | @word c rest _ hword hmore =>
          -- One lexeme for the one reading, as many steps as it has characters for the other.
          rw [skipGroup_skip _ (fun _ => Token.noConfusion), skipFrames_bracket_word hword,
            ← eq_dropWhile_isWordChar fun _ _ => skipFrames_bracket_word]
          exact ih hmore close outer
      | @literal c rest after _ hquote hpass hmore =>
          rw [skipGroup_skip _ (fun _ => Token.noConfusion), skipFrames_bracket_literal hquote,
            hpass]
          exact ih hmore close outer
      | @mark c rest _ _ hquote hvisible hmore =>
          obtain ⟨hstring, hbacktick⟩ := ne_of_not_isQuote hquote
          rw [skipFrames_bracket, skipTrivia_of_startsVisibly hvisible]
          simp only [Except.bind, if_neg hbacktick, if_neg hstring, skipGroup]
          cases hopening : closing? c with
          | some partner => exact ih hmore partner (close :: outer)
          | none =>
              dsimp only
              split
              · split
                · cases outer with
                  | nil =>
                      rw [List.map_nil, skipFrames]
                      exact .ok hmore
                  | cons next outer => exact ih hmore next outer
                · exact .error rfl
              · exact ih hmore close outer

/-- Inside of brackets a value goes on until they are closed. -/
theorem skipValue_eq_skipGroup (close : Char) (outer : List Char) (lexs : List Lexeme) :
    skipValue (close :: outer) lexs = skipGroup (close :: outer) lexs >>= skipValue [] := by
  induction lexs generalizing close outer with
  | nil => rfl
  | cons lexeme lexs ih =>
      obtain ⟨token, source⟩ := lexeme
      cases token with
      | word name => exact ih close outer
      | literal => exact ih close outer
      | mark c =>
          simp only [skipValue, skipGroup]
          cases closing? c with
          | some partner => exact ih partner (close :: outer)
          | none =>
              dsimp only
              split
              · split
                · cases outer with
                  | nil => rfl
                  | cons next outer => exact ih next outer
                · rfl
              · exact ih close outer

theorem Lexed.group (h : Lexed text lexs) :
    Matches Lexed (walkGroup text) (skipGroup [] lexs) := by
  induction lexs generalizing text with
  | nil =>
      obtain ⟨visible, htrivia, hbegins⟩ := h.exists_begins
      cases hbegins
      rw [walkGroup_eq, htrivia]
      exact .error rfl
  | cons lexeme lexs ih =>
      obtain ⟨visible, htrivia, hbegins⟩ := h.exists_begins
      cases hbegins with
      | @word c rest _ hword hmore =>
          obtain ⟨hopening, hclosing, hquote⟩ := plain_of_isWordChar hword
          rw [walkGroup_other htrivia hopening, passOver_plain hopening hclosing hquote, ok_bind,
            skipGroup_skip _ (fun _ => Token.noConfusion),
            ← eq_dropWhile_isWordChar fun _ _ => walkGroup_wordChar]
          exact ih hmore
      | @literal c rest after _ hquote hpass hmore =>
          rw [walkGroup_other htrivia (code_of_isQuote hquote).1, hpass, ok_bind,
            skipGroup_skip _ (fun _ => Token.noConfusion)]
          exact ih hmore
      | @mark c rest _ _ hquote hvisible hmore =>
          rw [skipGroup]
          cases hopening : closing? c with
          | some partner =>
              rw [walkGroup_opening htrivia hopening]
              exact hmore.closers partner []
          | none =>
              rw [walkGroup_other htrivia hopening]
              dsimp only
              by_cases hclosing : isClosing c = true
              · rw [passOver_closing hopening hclosing, if_pos hclosing]
                exact .error rfl
              · rw [passOver_plain hopening (Bool.not_eq_true _ ▸ hclosing) hquote,
                  if_neg hclosing]
                exact ih hmore

theorem Lexed.value (h : Lexed text lexs) :
    Matches Lexed (walkValue text) (skipValue [] lexs) := by
  -- A value goes on behind brackets, so the induction is on how many lexemes are left.
  induction hlength : lexs.length using Nat.strongRecOn generalizing text lexs with
  | ind length ih =>
      obtain ⟨visible, htrivia, hbegins⟩ := h.exists_begins
      cases hbegins with
      | nil =>
          rw [walkValue_eq, htrivia]
          exact .error rfl
      | @word c rest more hword hmore =>
          obtain ⟨hopening, hclosing, hquote⟩ := plain_of_isWordChar hword
          rw [walkValue_other htrivia (not_ends_of_isWordChar hword),
            passOver_plain hopening hclosing hquote, ok_bind,
            skipValue_skip _ (fun _ => Token.noConfusion),
            ← eq_dropWhile_isWordChar fun _ _ => walkValue_wordChar]
          exact ih _ (by simp [← hlength]) hmore rfl
      | @literal c rest after more hquote hpass hmore =>
          have hends : ¬ (c = ',' ∨ c = '}') := by
            rintro (rfl | rfl) <;> cases hquote
          rw [walkValue_other htrivia hends, hpass, ok_bind,
            skipValue_skip _ (fun _ => Token.noConfusion)]
          exact ih _ (by simp [← hlength]) hmore rfl
      | @mark c rest more _ hquote hvisible hmore =>
          rw [skipValue]
          cases hopening : closing? c with
          | some partner =>
              have hends : ¬ (c = ',' ∨ c = '}') := by
                rintro (rfl | rfl) <;> cases hopening
              rw [walkValue_other htrivia hends, passOver_opening hopening]
              dsimp only
              rw [skipValue_eq_skipGroup]
              apply (hmore.closers partner []).and_ok.bind
              rintro after behind ⟨-, hskip, hafter⟩
              have hshorter := skipGroup_length_lt hskip
              simp only [List.length_cons] at hlength
              exact ih _ (by omega) hafter rfl
          | none =>
              dsimp only
              by_cases hends : c = ',' ∨ c = '}'
              · rw [walkValue_eq, htrivia, if_pos hends]
                simp only [Except.bind, if_pos hends]
                exact .ok (h.behindTrivia htrivia)
              · rw [walkValue_other htrivia hends, if_neg hends]
                by_cases hclosing : isClosing c = true
                · rw [passOver_closing hopening hclosing, if_pos hclosing]
                  exact .error rfl
                · rw [passOver_plain hopening (Bool.not_eq_true _ ▸ hclosing) hquote, ok_bind,
                    if_neg hclosing]
                  exact ih _ (by simp [← hlength]) hmore rfl

end Skipping

section Keys

variable {c : Char} {rest : List Char}

/-- A literal that spells something ends where its token ends. -/
theorem readToken_of_readLiteral {value after : List Char} (hquote : isQuote c = true)
    (h : readLiteral c rest = .ok (value, after)) : readToken c rest = .ok (.literal, after) := by
  obtain ⟨content, hcontent, rfl⟩ := spelled_of_readLiteral hquote h
  exact readToken_spelled hquote hcontent after

theorem passOver_of_readLiteral {value after : List Char} (hquote : isQuote c = true)
    (h : readLiteral c rest = .ok (value, after)) : passOver c rest = .ok after := by
  have htoken := readToken_of_readLiteral hquote h
  rw [readToken_of_isQuote hquote] at htoken
  obtain ⟨_, hpass, htoken⟩ := bind_eq_ok htoken
  cases htoken
  exact hpass

end Keys

section Reading

variable {text : List Char} {lexs : List Lexeme}

theorem Begins.endsKeyText_eq (h : Begins text lexs) : endsKeyText text = endsKey lexs := by
  cases h with
  | nil => rfl
  | @word c rest _ hword _ =>
      have hother {other : Char} (h : isMark other = true) : decide (c = other) = false :=
        decide_eq_false (ne_mark_of_isWordChar hword h)
      rw [endsKeyText, endsKey, hother (isMark_of_mem (by decide)),
        hother (isMark_of_mem (by decide)), hother (isMark_of_mem (by decide)),
        hother (isMark_of_mem (by decide))]
      · rfl
      · rintro _ _ _ ⟨⟩
  | @literal c rest after _ hquote _ _ =>
      simp only [isQuote, Bool.or_eq_true, decide_eq_true_eq] at hquote
      rcases hquote with (rfl | rfl) | rfl <;> rfl
  | mark => rfl

theorem Begins.key (h : Begins text lexs) :
    Matches SameFound (walkKey text) (readKey lexs) := by
  induction lexs generalizing text with
  | nil =>
      cases h
      rw [walkKey]
      exact .error rfl
  | cons lexeme lexs ih =>
      cases h with
      | @word c rest _ hword hmore =>
          obtain ⟨next, htrivia, hnext⟩ := hmore.exists_begins
          rw [walkKey_word hword, htrivia, ok_bind, hnext.endsKeyText_eq, readKey]
          generalize String.ofList (c :: rest.takeWhile isWordChar) = name
          by_cases hmodifier : isModifier name = true
          · rw [if_pos hmodifier, hmodifier, Bool.true_and]
            cases endsKey lexs with
            | false => exact ih hnext
            | true => exact .ok ⟨rfl, hmore.behindTrivia htrivia⟩
          · rw [if_neg hmodifier, if_neg (by simp [hmodifier])]
            exact .ok ⟨rfl, hmore⟩
      | @literal c rest after _ hquote hpass hmore =>
          rw [walkKey_literal hquote, readKey]
          simp only [Lexeme.spelled]
          cases hread : readLiteral c rest with
          | error fault => exact .error rfl
          | ok read =>
              -- The one reading decodes the literal, the other has passed over it as a token.
              obtain ⟨value, behind⟩ := read
              have hbehind := passOver_of_readLiteral hquote hread
              rw [hpass] at hbehind
              cases hbehind
              exact .ok ⟨rfl, hmore⟩
      | @mark c rest _ hword hquote hvisible hmore =>
          by_cases hbracket : c = '['
          · subst hbracket
            have hlexed : Lexed ('[' :: rest) (⟨.mark '[', '[' :: rest⟩ :: lexs) := by
              rw [Lexed, lexemes_mark (isMark_of_mem (by decide)), hmore]
              rfl
            rw [walkKey_computed, readKey]
            apply hlexed.group.bind
            intro _ _ hafter
            exact .ok ⟨rfl, hafter⟩
          · by_cases hdots : ['.', '.', '.'] <+: c :: rest
            · have hspread := hdots
              obtain ⟨tail, htail⟩ := hdots
              rw [List.cons_append, List.cons_append, List.cons_append, List.nil_append] at htail
              obtain ⟨rfl, rfl⟩ := List.cons.inj htail
              obtain ⟨more, htail, rfl⟩ := lexemes_dots hmore
              rw [walkKey_dots, readKey_dots hbracket hspread]
              apply (Lexed.value htail).bind
              intro _ _ hafter
              exact .ok ⟨rfl, hafter⟩
            · rw [walkKey_notAKey hword hquote hbracket hdots, readKey_notAKey hbracket hdots]
              exact .error rfl

theorem Begins.exists_mark {c : Char} {rest : List Char} (h : Begins (c :: rest) lexs)
    (hmark : isMark c = true) : ∃ more, lexs = ⟨.mark c, c :: rest⟩ :: more ∧ Lexed rest more := by
  simp only [isMark, Bool.and_eq_true, Bool.not_eq_true', decide_eq_true_eq, ne_eq] at hmark
  cases h with
  | word hword _ => simp_all
  | literal hquote _ _ => simp_all [isQuote]
  | mark _ _ _ hmore => exact ⟨_, rfl, hmore⟩

theorem Begins.token_ne {d : Char} {lexeme : Lexeme} (h : Begins text (lexeme :: lexs))
    (hd : text.head? ≠ some d) : lexeme.token ≠ .mark d := by
  cases h with
  | word => exact Token.noConfusion
  | literal => exact Token.noConfusion
  | mark =>
      rintro ⟨⟩
      exact hd rfl

theorem Begins.afterMark?_eq_none {d : Char} (h : Begins text lexs) (hd : text.head? ≠ some d) :
    afterMark? d lexs = none := by
  unfold afterMark?
  split
  · apply if_neg
    rintro rfl
    exact h.token_ne hd rfl
  · rfl

theorem Begins.separatorFault_eq {c : Char} {rest : List Char} (h : Begins (c :: rest) lexs) :
    separatorFault lexs = .noSeparator c := by
  cases h with
  | word => rfl
  | literal => rfl
  | mark => rfl

/-- Two ways to read a value do the same wherever a value can stand. -/
def TextReader.Follows (walker : TextReader) (reader : ValueReader) : Prop :=
  ∀ {key text lexs}, Lexed text lexs →
    Matches SameFound (walker.read key text) (reader.read key lexs)

variable {walker : TextReader} {reader : ValueReader}

theorem Lexed.afterKey (hvalue : walker.Follows reader) (key : Option String)
    (h : Lexed text lexs) :
    Matches SameFound (walkRest walker key text) (readRest reader key lexs) := by
  obtain ⟨visible, htrivia, hbegins⟩ := h.exists_begins
  have hvisible := h.behindTrivia htrivia
  rw [walkRest, htrivia, ok_bind]
  split
  · obtain ⟨more, rfl, hmore⟩ := hbegins.exists_mark (isMark_of_mem (by decide))
    exact hvalue hmore
  · obtain ⟨more, rfl, hmore⟩ := hbegins.exists_mark (isMark_of_mem (by decide))
    apply hvisible.group.bind
    intro _ _ hbody
    apply hbody.group.bind
    intro _ _ hafter
    exact .ok ⟨rfl, hafter⟩
  · next hcolon hmethod =>
      have hhead {d : Char} (hd : ∀ rest, visible ≠ d :: rest) : visible.head? ≠ some d := by
        intro h
        obtain ⟨rest, hrest⟩ := List.head?_eq_some_iff.mp h
        exact hd rest hrest
      cases lexs with
      | nil => exact .ok ⟨rfl, hvisible⟩
      | cons lexeme lexs =>
          rw [readRest_other (hbegins.token_ne (hhead hcolon)) (hbegins.token_ne (hhead hmethod))]
          exact .ok ⟨rfl, hvisible⟩

theorem Begins.property (hvalue : walker.Follows reader) (h : Begins text lexs) :
    Matches SameFound (walkProperty walker text) (readProperty reader lexs) := by
  apply h.key.bind
  rintro ⟨key, afterKey⟩ ⟨_, behindKey⟩ ⟨rfl, hbehind⟩
  apply (hbehind.afterKey hvalue key).bind
  rintro ⟨hooks, after⟩ ⟨_, behind⟩ ⟨rfl, hafter⟩
  exact .ok ⟨rfl, hafter⟩

end Reading

section Properties

variable {walker : TextReader} {reader : ValueReader} {text next rest : List Char}
  {lexs : List Lexeme}

/-- Both readings found the same, and came to the brace that closes the object. -/
def SameClosed (lexs : List Lexeme) (walked : List Property × List Char)
    (read : List Property × List Lexeme) : Prop :=
  SameFound walked read ∧ ⟨.mark '}', '}' :: walked.2⟩ :: read.2 <:+ lexs

/-- One property further on, the induction is on the lexemes that are left. -/
theorem Lexed.others {found : List Property} (h : Lexed text lexs)
    (ih : ∀ {rest more}, Lexed rest more → more.length < lexs.length →
      Matches (SameClosed more) (walkProperties walker rest) (readProperties reader more)) :
    Matches (SameClosed lexs) (walkOthers walker found text) (readOthers reader found lexs) := by
  obtain ⟨visible, htrivia, hbegins⟩ := h.exists_begins
  rw [walkOthers, htrivia, ok_bind]
  split
  · obtain ⟨more, rfl, hmore⟩ := hbegins.exists_mark (isMark_of_mem (by decide))
    apply (ih hmore (by simp)).bind
    rintro ⟨others, final⟩ ⟨_, last⟩ ⟨⟨rfl, hfinal⟩, hsuffix⟩
    exact .ok ⟨⟨rfl, hfinal⟩, hsuffix.trans (List.suffix_cons ..)⟩
  · obtain ⟨more, rfl, hmore⟩ := hbegins.exists_mark (isMark_of_mem (by decide))
    exact .ok ⟨⟨rfl, hmore⟩, List.suffix_refl _⟩
  · cases hbegins
    exact .error rfl
  · next c tail hcomma hbrace =>
      have hhead {d : Char} (hd : c = d → False) : (c :: tail).head? ≠ some d := by
        rwa [List.head?_cons, ne_eq, Option.some.injEq]
      rw [readOthers, hbegins.afterMark?_eq_none (hhead hcomma),
        hbegins.afterMark?_eq_none (hhead hbrace), hbegins.separatorFault_eq]
      exact .error rfl

theorem Lexed.properties (hvalue : walker.Follows reader) (hpassing : reader.IsPassing)
    (h : Lexed text lexs) :
    Matches (SameClosed lexs) (walkProperties walker text) (readProperties reader lexs) := by
  induction hlength : lexs.length using Nat.strongRecOn generalizing text lexs with
  | ind length ih =>
      obtain ⟨next, htrivia, hbegins⟩ := h.exists_begins
      by_cases hclose : next.head? = some '}'
      · obtain ⟨rest, rfl⟩ := List.head?_eq_some_iff.mp hclose
        obtain ⟨more, rfl, hmore⟩ := hbegins.exists_mark (isMark_of_mem (by decide))
        rw [walkProperties_close htrivia, readProperties_close rfl]
        exact .ok ⟨⟨rfl, hmore⟩, List.suffix_refl _⟩
      · rw [walkProperties_open htrivia hclose,
          readProperties_open (hbegins.afterMark?_eq_none hclose)]
        apply (hbegins.property hvalue).and_ok.bind
        rintro ⟨found, behind⟩ ⟨_, after⟩ ⟨-, hproperty, rfl, hbehind⟩
        have hshorter := readProperty_length_lt hproperty
        have hothers : Matches (SameClosed after) (walkOthers walker found behind)
            (readOthers reader found after) :=
          hbehind.others fun hrest hless =>
            ih _ (Nat.lt_trans hless (hlength ▸ hshorter)) hrest rfl
        have hsuffix := (Covers.property hpassing ⟨text, h⟩ hproperty).suffix
        exact hothers.mono fun _ _ hsame => ⟨hsame.1, hsame.2.trans hsuffix⟩

theorem skippedText_follows : skippedText.Follows skippedValue := by
  intro key text lexs h
  apply h.value.bind
  intro _ _ hafter
  exact .ok ⟨rfl, hafter⟩

theorem hookText_follows : hookText.Follows hookValue := by
  intro key text lexs h
  obtain ⟨visible, htrivia, hbegins⟩ := h.exists_begins
  simp only [hookText, htrivia]
  split
  · next hkey hvisible =>
      cases hvisible
      obtain ⟨more, rfl, hmore⟩ := hbegins.exists_mark (isMark_of_mem (by decide))
      rw [hookValue_object key hkey rfl]
      apply (hmore.properties skippedText_follows skippedValue_isPassing).bind
      rintro ⟨properties, after⟩ ⟨_, behind⟩ ⟨⟨rfl, hafter⟩, -⟩
      exact .ok ⟨rfl, hafter⟩
  · next hother =>
      rw [hookValue_other key ?_]
      · exact skippedText_follows h
      · cases hkey : key.any isHookKey with
        | false => exact .inl rfl
        | true =>
            refine .inr (hbegins.afterMark?_eq_none ?_)
            intro hhead
            obtain ⟨rest, rfl⟩ := List.head?_eq_some_iff.mp hhead
            exact hother rest hkey rfl

/-- An object literal read from its opening brace on. -/
theorem Lexed.object {source : List Char} {behind : List Lexeme}
    (h : Lexed source (⟨.mark '{', source⟩ :: behind)) :
    Matches (SameClosed behind) (walkObject source)
      (readObject (⟨.mark '{', source⟩ :: behind)) := by
  obtain ⟨visible, -, hbegins⟩ := h.exists_begins
  cases hbegins with
  | mark _ _ _ hmore => exact hmore.properties hookText_follows hookValue_isPassing

end Properties

end FeatureCompiler.Script
