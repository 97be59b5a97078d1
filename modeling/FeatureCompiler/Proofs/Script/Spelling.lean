import FeatureCompiler.Proofs.Script.Literal
import FeatureCompiler.Proofs.Script.Trivia
import FeatureCompiler.Proofs.Text.Ranges
import FeatureCompiler.Script.Token

/-!
The tokens of texts that are put together from parts. A part spells some tokens if the tokens of any
text that starts with it are these and then those of what follows. Such parts can be put one after
the other. A word spells itself only before a character that cannot go on with it.
-/

namespace FeatureCompiler

namespace Script

theorem isWordChar_of_isAlphanum {c : Char} (h : c.isAlphanum = true) : isWordChar c = true := by
  have hlt : c.toNat < 128 := by
    change ((decide (c.val ≥ 'A'.val ∧ c.val ≤ 'Z'.val) ||
      decide (c.val ≥ 'a'.val) && decide (c.val ≤ 'z'.val)) ||
      decide (c.val ≥ '0'.val) && decide (c.val ≤ '9'.val)) = true at h
    simp only [Bool.or_eq_true, Bool.and_eq_true, decide_eq_true_eq,
      UInt32.le_iff_toNat_le] at h
    have hupper : c.toNat ≤ 122 := by
      rcases h with (h | h) | h
      · exact Nat.le_trans (UInt32.le_iff_toNat_le.mp h.2) (by decide)
      · exact h.2
      · exact Nat.le_trans h.2 (by decide)
    omega
  rw [Char.isAlphanum, Bool.or_eq_true] at h
  rcases h with h | h
  · simp [isWordChar, Text.isAlphabetic, hlt, h]
  · simp [isWordChar, Text.isNumeric, hlt, h]

theorem isBlank_of_isWordChar {c : Char} (h : isWordChar c = true) : Text.isBlank c = false := by
  have halphabetic : ∀ range ∈ Text.alphabeticRanges, ∀ other ∈ Text.blankRanges,
      range.2 < other.1 ∨ other.2 < range.1 := by
    decide +kernel
  have hnumeric : ∀ range ∈ Text.numericRanges, ∀ other ∈ Text.blankRanges,
      range.2 < other.1 ∨ other.2 < range.1 := by
    decide +kernel
  simp only [isWordChar, Bool.or_eq_true, decide_eq_true_eq] at h
  rcases h with ((h | h) | rfl) | rfl
  · exact Text.not_inRanges_of_disjoint halphabetic (Text.inRanges_of_isAlphabetic h)
  · exact Text.not_inRanges_of_disjoint hnumeric (Text.inRanges_of_isNumeric h)
  · decide
  · decide

theorem not_isWordChar_of_isBlank {c : Char} (h : Text.isBlank c = true) :
    isWordChar c = false := by
  cases hword : isWordChar c with
  | false => rfl
  | true => exact absurd (h.symm.trans (isBlank_of_isWordChar hword)) (by decide)

theorem lexemes_eq (text : List Char) :
    lexemes text = (skipTrivia .blanks text).bind fun
      | [] => .ok []
      | c :: rest => (readToken c rest).bind fun read =>
          (lexemes read.2).map (⟨read.1, c :: rest⟩ :: ·) := by
  rw [lexemes]
  split
  · next htrivia => rw [htrivia]; rfl
  · next htrivia => rw [htrivia]; rfl
  · next c rest htrivia =>
      simp only [htrivia, Except.bind]
      split
      · next htoken => rw [htoken]
      · next token after htoken =>
          simp only [htoken]
          cases lexemes after <;> rfl

theorem lexemes_nil : lexemes [] = .ok [] := by
  rw [lexemes_eq]
  rfl

theorem lexemes_congr {first second : List Char}
    (h : skipTrivia .blanks first = skipTrivia .blanks second) :
    lexemes first = lexemes second := by
  rw [lexemes_eq first, lexemes_eq second, h]

theorem skipTrivia_of_visible {c : Char} (hblank : Text.isBlank c = false) (hslash : c ≠ '/')
    (rest : List Char) : skipTrivia .blanks (c :: rest) = .ok (c :: rest) :=
  skipTrivia_of_startsVisibly ⟨hblank, fun h => absurd h hslash⟩

theorem lexemes_of_visible {c : Char} (hblank : Text.isBlank c = false) (hslash : c ≠ '/')
    {rest after : List Char} {token : Token} (htoken : readToken c rest = .ok (token, after)) :
    lexemes (c :: rest) = (lexemes after).map (⟨token, c :: rest⟩ :: ·) := by
  rw [lexemes_eq, skipTrivia_of_visible hblank hslash]
  simp only [Except.bind, htoken]

theorem lexemes_blank {c : Char} (hblank : Text.isBlank c = true) (rest : List Char) :
    lexemes (c :: rest) = lexemes rest :=
  lexemes_congr (skipTrivia_blank hblank rest)

/-- The tokens of a text without the places where they stand. -/
def tokens (text : List Char) : Except Fault (List Token) :=
  (lexemes text).map (List.map Lexeme.token)

theorem tokens_nil : tokens [] = .ok [] := by
  rw [tokens, lexemes_nil]
  rfl

theorem tokens_congr {first second : List Char}
    (h : skipTrivia .blanks first = skipTrivia .blanks second) : tokens first = tokens second := by
  rw [tokens, tokens, lexemes_congr h]

theorem tokens_of_visible {c : Char} (hblank : Text.isBlank c = false) (hslash : c ≠ '/')
    {rest after : List Char} {token : Token} (htoken : readToken c rest = .ok (token, after)) :
    tokens (c :: rest) = (tokens after).map (token :: ·) := by
  rw [tokens, tokens, lexemes_of_visible hblank hslash htoken]
  cases lexemes after <;> rfl

theorem tokens_blank {c : Char} (hblank : Text.isBlank c = true) (rest : List Char) :
    tokens (c :: rest) = tokens rest := by
  rw [tokens, tokens, lexemes_blank hblank]

/-- A character that is a token of its own wherever it stands outside of literals and comments. -/
def isMark (c : Char) : Bool :=
  !Text.isBlank c && !isWordChar c && c ≠ '/' && c ≠ '\'' && c ≠ '"' && c ≠ '`'

theorem visible_of_isMark {c : Char} (hmark : isMark c = true) :
    Text.isBlank c = false ∧ c ≠ '/' := by
  simp only [isMark, Bool.and_eq_true, Bool.not_eq_true', decide_eq_true_eq, ne_eq] at hmark
  obtain ⟨⟨⟨⟨⟨hblank, -⟩, hslash⟩, -⟩, -⟩, -⟩ := hmark
  exact ⟨hblank, hslash⟩

theorem not_isWordChar_of_isMark {c : Char} (h : isMark c = true) : isWordChar c = false := by
  simp only [isMark, Bool.and_eq_true, Bool.not_eq_true'] at h
  exact h.1.1.1.1.2

/-- The marks that object literals and the names of their members are written with. -/
theorem isMark_of_mem {c : Char} (h : c ∈ ['(', ')', '[', ']', '{', '}', ',', '.', ':']) :
    isMark c = true := by
  have hall : ['(', ')', '[', ']', '{', '}', ',', '.', ':'].all isMark = true := by decide +kernel
  exact List.all_eq_true.mp hall c h

theorem readToken_mark {c : Char} (hmark : isMark c = true) (rest : List Char) :
    readToken c rest = .ok (.mark c, rest) := by
  simp only [isMark, Bool.and_eq_true, Bool.not_eq_true', decide_eq_true_eq, ne_eq] at hmark
  obtain ⟨⟨⟨⟨⟨-, hword⟩, -⟩, hsingle⟩, hdouble⟩, hbacktick⟩ := hmark
  simp [readToken, hsingle, hdouble, hbacktick, hword]

theorem lexemes_mark {c : Char} (hmark : isMark c = true) (rest : List Char) :
    lexemes (c :: rest) = (lexemes rest).map (⟨.mark c, c :: rest⟩ :: ·) := by
  obtain ⟨hblank, hslash⟩ := visible_of_isMark hmark
  exact lexemes_of_visible hblank hslash (readToken_mark hmark rest)

theorem tokens_mark {c : Char} (hmark : isMark c = true) (rest : List Char) :
    tokens (c :: rest) = (tokens rest).map (.mark c :: ·) := by
  rw [tokens, tokens, lexemes_mark hmark]
  cases lexemes rest <;> rfl

theorem ne_of_isWordChar {c other : Char} (hc : isWordChar c = true)
    (hother : isWordChar other = false) : c ≠ other := by
  rintro rfl
  exact Bool.false_ne_true (hother.symm.trans hc)

/-- What literals and comments start with is not part of a word. -/
theorem not_isWordChar_of_mem {c : Char} (h : c ∈ ['/', '\'', '"', '`']) :
    isWordChar c = false := by
  have hall : ['/', '\'', '"', '`'].all (!isWordChar ·) = true := by decide +kernel
  simpa using List.all_eq_true.mp hall c h

theorem visible_of_isWordChar {c : Char} (hc : isWordChar c = true) :
    Text.isBlank c = false ∧ c ≠ '/' :=
  ⟨isBlank_of_isWordChar hc, ne_of_isWordChar hc (not_isWordChar_of_mem (by decide))⟩

theorem readToken_wordChar {c : Char} (hc : isWordChar c = true) (rest : List Char) :
    readToken c rest =
      .ok (.word (String.ofList (c :: rest.takeWhile isWordChar)), rest.dropWhile isWordChar) := by
  have hsingle : c ≠ '\'' := ne_of_isWordChar hc (not_isWordChar_of_mem (by decide))
  have hdouble : c ≠ '"' := ne_of_isWordChar hc (not_isWordChar_of_mem (by decide))
  have hbacktick : c ≠ '`' := ne_of_isWordChar hc (not_isWordChar_of_mem (by decide))
  simp [readToken, hsingle, hdouble, hbacktick, hc]

/-- A text that is one token, a word, if the next character does not go on with it. -/
def isWord (text : List Char) : Bool :=
  !text.isEmpty && text.all isWordChar

theorem readToken_word {c : Char} {more rest : List Char} (hname : isWord (c :: more) = true)
    (hrest : rest.head?.any isWordChar = false) :
    readToken c (more ++ rest) = .ok (.word (String.ofList (c :: more)), rest) := by
  simp only [isWord, List.all_cons, Bool.and_eq_true, List.all_eq_true] at hname
  obtain ⟨-, hc, hmore⟩ := hname
  have htake : (more ++ rest).takeWhile isWordChar = more := by
    rw [List.takeWhile_append_of_pos hmore]
    cases rest with
    | nil => simp
    | cons d rest => simp_all
  have hdrop : (more ++ rest).dropWhile isWordChar = rest := by
    rw [List.dropWhile_append_of_pos hmore]
    cases rest with
    | nil => simp
    | cons d rest => simp_all
  rw [readToken_wordChar hc, htake, hdrop]

theorem lexemes_word {name rest : List Char} (hname : isWord name = true)
    (hrest : rest.head?.any isWordChar = false) :
    lexemes (name ++ rest) =
      (lexemes rest).map (⟨.word (String.ofList name), name ++ rest⟩ :: ·) := by
  cases name with
  | nil => cases hname
  | cons c more =>
      have hc : isWordChar c = true := by
        simp only [isWord, List.all_cons, Bool.and_eq_true] at hname
        exact hname.2.1
      obtain ⟨hblank, hslash⟩ := visible_of_isWordChar hc
      exact lexemes_of_visible hblank hslash (readToken_word hname hrest)

/-- A word character before a text goes on with the word that starts there, or is a word of its
own. -/
theorem lexemes_wordChar {c : Char} {text : List Char} {lexs : List Lexeme}
    (hc : isWordChar c = true) (htext : lexemes text = .ok lexs) :
    ∃ name source more, lexemes (c :: text) = .ok (⟨.word name, source⟩ :: more) ∧
      (lexs = more ∨ ∃ other place, lexs = ⟨.word other, place⟩ :: more) := by
  obtain ⟨hblank, hslash⟩ := visible_of_isWordChar hc
  rw [lexemes_of_visible hblank hslash (readToken_wordChar hc text)]
  cases text with
  | nil =>
      rw [List.dropWhile_nil, htext]
      exact ⟨_, _, lexs, rfl, .inl rfl⟩
  | cons d text =>
      by_cases hd : isWordChar d = true
      · obtain ⟨hblank, hslash⟩ := visible_of_isWordChar hd
        rw [lexemes_of_visible hblank hslash (readToken_wordChar hd text)] at htext
        rw [List.dropWhile_cons_of_pos hd]
        cases hrest : lexemes (text.dropWhile isWordChar) with
        | error fault =>
            rw [hrest] at htext
            cases htext
        | ok rest =>
            rw [hrest] at htext
            cases htext
            exact ⟨_, _, rest, rfl, .inr ⟨_, _, rfl⟩⟩
      · rw [List.dropWhile_cons_of_neg hd, htext]
        exact ⟨_, _, lexs, rfl, .inl rfl⟩

theorem tokens_word {name rest : List Char} (hname : isWord name = true)
    (hrest : rest.head?.any isWordChar = false) :
    tokens (name ++ rest) = (tokens rest).map (.word (String.ofList name) :: ·) := by
  rw [tokens, tokens, lexemes_word hname hrest]
  cases lexemes rest <;> rfl

theorem readToken_flatMap {write : Char → List Char} (hwrite : ∀ c, SpellsChar '"' (write c) c)
    (text rest : List Char) :
    readToken '"' (text.flatMap write ++ '"' :: rest) = .ok (.literal, rest) := by
  simp only [readToken, readLiteral_flatMap (by decide : '"' ≠ '\\') hwrite]
  rfl

/-- What is written between backticks is one token, whatever follows. -/
theorem readToken_escapeTemplate (text rest : List Char) :
    readToken '`' (TestModule.escapeTemplate text ++ '`' :: rest) = .ok (.literal, rest) := by
  simp only [readToken, skipFrames_escapeTemplate]
  rw [skipFrames]
  rfl

/-- Whatever follows the text, it is these tokens and then those of what follows. -/
def Spells (text : List Char) (spelled : List Token) : Prop :=
  ∀ rest, tokens (text ++ rest) = (tokens rest).map (spelled ++ ·)

namespace Spells

theorem nil : Spells [] [] := by
  intro rest
  cases h : tokens rest <;> simp [Except.map, h]

theorem append {first second : List Char} {left right : List Token} (hfirst : Spells first left)
    (hsecond : Spells second right) : Spells (first ++ second) (left ++ right) := by
  intro rest
  rw [List.append_assoc, hfirst, hsecond]
  cases tokens rest <;> simp [Except.map]

theorem append_string {first second : String} {left right : List Token}
    (hfirst : Spells first.toList left) (hsecond : Spells second.toList right) :
    Spells (first ++ second).toList (left ++ right) := by
  rw [String.toList_append]
  exact hfirst.append hsecond

theorem tokens_eq {text : List Char} {spelled : List Token} (h : Spells text spelled) :
    tokens text = .ok spelled := by
  have hrest := h []
  rw [List.append_nil, tokens_nil] at hrest
  simpa [Except.map] using hrest

theorem blank {c : Char} (hblank : Text.isBlank c = true) : Spells [c] [] := by
  intro rest
  exact (tokens_blank hblank rest).trans (nil rest)

theorem mark {c : Char} (hmark : isMark c = true) : Spells [c] [.mark c] :=
  tokens_mark hmark

theorem word {name text : List Char} {spelled : List Token} (hname : isWord name = true)
    (htext : Spells text spelled) (hhead : text.head?.any (!isWordChar ·) = true) :
    Spells (name ++ text) (.word (String.ofList name) :: spelled) := by
  intro rest
  rw [List.append_assoc, tokens_word hname, htext]
  · cases tokens rest <;> rfl
  · cases text with
    | nil => cases hhead
    | cons c more => simpa using hhead

theorem word_string {name text : String} {spelled : List Token}
    (hname : isWord name.toList = true) (htext : Spells text.toList spelled)
    (hhead : text.toList.head?.any (!isWordChar ·) = true) :
    Spells (name ++ text).toList (.word name :: spelled) := by
  have h := word hname htext hhead
  rwa [← String.toList_append, String.ofList_toList] at h

/-- The tokens of characters outside of literals and comments, after a word that has begun. -/
def plainTokens (begun : List Char) : List Char → List Token
  | [] => []
  | c :: rest =>
      if isWordChar c then plainTokens (begun ++ [c]) rest
      else
        (if isWord begun then [.word (String.ofList begun)] else []) ++
          ((if Text.isBlank c then [] else [.mark c]) ++ plainTokens [] rest)

/-- No literal or comment starts in the text. -/
def isPlain (text : List Char) : Bool :=
  text.all fun c => Text.isBlank c || isWordChar c || isMark c

/-- What follows the text cannot go on with a word in it. -/
def endsWords (text : List Char) : Bool :=
  text.getLast?.all (!isWordChar ·)

theorem plain_after {begun text : List Char} (hbegun : begun.all isWordChar = true)
    (hplain : isPlain text = true) (hends : endsWords (begun ++ text) = true) :
    Spells (begun ++ text) (plainTokens begun text) := by
  -- The word that has begun grows with the text, and is emitted at the first other character.
  induction text generalizing begun with
  | nil =>
      rcases List.eq_nil_or_concat begun with rfl | ⟨init, c, rfl⟩
      · exact nil
      · simp_all [endsWords]
  | cons c text ih =>
      simp only [isPlain, List.all_cons, Bool.and_eq_true, Bool.or_eq_true] at hplain
      obtain ⟨hc, htext⟩ := hplain
      rw [plainTokens]
      split
      · next hword =>
          rw [List.append_cons] at hends ⊢
          exact ih (by simp_all) htext hends
      · next hword =>
          have hends : endsWords text = true := by
            cases text with
            | nil => rfl
            | cons d text => simpa [endsWords, List.getLast?_cons] using hends
          have hrest : Spells text (plainTokens [] text) := ih List.all_nil htext hends
          have hchar : Spells [c] (if Text.isBlank c then [] else [.mark c]) := by
            split
            · next hblank => exact blank hblank
            · next hblank => exact mark (hc.resolve_left (not_or.mpr ⟨hblank, hword⟩))
          have hfrom := hchar.append hrest
          split
          · next hname => exact word hname hfrom (by simpa using hword)
          · next hname =>
              cases begun with
              | nil => exact hfrom
              | cons d begun => exact absurd hbegun (by simpa [isWord] using hname)

theorem plain {text : List Char} {spelled : List Token}
    (h : isPlain text = true ∧ endsWords text = true ∧ plainTokens [] text = spelled) :
    Spells text spelled := by
  obtain ⟨hplain, hends, rfl⟩ := h
  exact plain_after List.all_nil hplain hends

theorem lineComment {text : List Char} (htext : '\n' ∉ text) :
    Spells ('/' :: '/' :: text ++ ['\n']) [] := by
  intro rest
  have htrivia : IsTrivia ('/' :: '/' :: (text ++ ['\n'])) := .lineComment htext .nil
  exact (tokens_congr (htrivia.skip rest)).trans (nil rest)

/-- A literal in double quotes that spells its characters one by one. -/
theorem quoted {write : Char → List Char} (hwrite : ∀ c, SpellsChar '"' (write c) c)
    (text : List Char) : Spells ('"' :: text.flatMap write ++ ['"']) [.literal] := by
  intro rest
  rw [List.cons_append, List.cons_append, List.append_assoc]
  exact tokens_of_visible (by decide) (by decide) (readToken_flatMap hwrite text rest)

theorem stringLiteral (text : String) :
    Spells (TestModule.stringLiteral text).toList [.literal] := by
  simpa [TestModule.stringLiteral, TestModule.escapeString] using
    quoted spellsChar_escapeChar text.toList

theorem jsonString (text : List Char) : Spells (Json.writeString text) [.literal] :=
  quoted spellsChar_writeChar text

theorem templateLiteral (text : String) :
    Spells (TestModule.templateLiteral text).toList [.literal] := by
  intro rest
  have htokens := tokens_of_visible (by decide) (by decide)
    (readToken_escapeTemplate text.toList rest)
  simpa [TestModule.templateLiteral] using htokens

theorem join {α : Type} {text : α → String} {spelled : α → List Token}
    (h : ∀ item, Spells (text item).toList (spelled item)) (items : List α) :
    Spells (String.join (items.map text)).toList (items.flatMap spelled) := by
  rw [String.toList_join]
  induction items with
  | nil => exact nil
  | cons item items ih => exact (h item).append ih

theorem joined {α : Type} {text : α → List Char} {spelled : α → List Token}
    (h : ∀ item, Spells (text item) (spelled item)) (items : List α) :
    Spells (Text.joined [','] (items.map text))
      (List.intercalate [.mark ','] (items.map spelled)) := by
  induction items with
  | nil => exact nil
  | cons item items ih =>
      cases items with
      | nil => simpa [Text.joined] using h item
      | cons next items =>
          rw [List.map_cons, List.map_cons, List.map_cons, List.map_cons,
            List.intercalate_cons_cons]
          exact ((h item).append (mark (isMark_of_mem (by decide)))).append ih

/-- Words with commas between them, up to something that does not go on with the last of them. -/
theorem names {text : List Char} {spelled : List Token} (htext : Spells text spelled)
    (hhead : text.head?.any (!isWordChar ·) = true) {names : List String}
    (hnames : ∀ name ∈ names, isWord name.toList = true) :
    Spells ((", ".intercalate names).toList ++ text)
      (List.intercalate [.mark ','] (names.map fun name => [.word name]) ++ spelled) := by
  induction names with
  | nil => simpa using htext
  | cons name names ih =>
      rw [List.forall_mem_cons] at hnames
      cases names with
      | nil => simpa using word hnames.1 htext hhead
      | cons next names =>
          have hmark : isMark ',' = true := isMark_of_mem (by decide)
          have hcomma : Spells ", ".toList [.mark ','] := (mark hmark).append (blank (by decide))
          have hend := not_isWordChar_of_isMark hmark
          have h := word hnames.1 (hcomma.append (ih hnames.2)) (by simpa using hend)
          simpa [List.intercalate_cons_cons] using h

end Spells

end Script

end FeatureCompiler
