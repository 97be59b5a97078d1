import FeatureCompiler.Proofs.Outcome
import FeatureCompiler.Proofs.Script.Code

/-!
Object literals as they are written. A property is a key with a value, a method, a shorthand, a
computed key with one of these, or a spread; blanks and comments can stand between any of its
tokens. The object reader finds the keys that are written out, in their order, and comes out behind
the closing brace.
-/

namespace FeatureCompiler.Script

/-- A key and the text that it stands for. -/
inductive IsKey : List Char → String → Prop where
  | name {text : List Char} : isWord text = true → IsKey text (String.ofList text)
  | literal {quote : Char} {content value : List Char} :
      isQuote quote = true → Spelled quote content value →
        IsKey (quote :: (content ++ [quote])) (String.ofList value)

/-- Nothing, or a word that can stand before the key of a method. The word ends before the key. -/
def Modifies (front key : List Char) : Prop :=
  front = [] ∨ ∃ name trivia, isModifier name = true ∧ IsTrivia trivia ∧
    front = name.toList ++ trivia ∧ (trivia ++ key).head?.any isWordChar = false

/-- The parameters and the body of a method. -/
inductive IsMethod : List Char → Prop where
  | mk {first second third parameters body : List Char} :
      IsTrivia first → IsCode .brackets parameters → IsTrivia second → IsCode .brackets body →
      IsTrivia third →
        IsMethod (first ++ '(' :: (parameters ++ ')' :: (second ++ '{' :: (body ++ '}' :: third))))

/-- What can stand after a colon under a key, with the keys of hooks that are looked for in it. -/
abbrev ValueText := String → List Char → Option (List String) → Prop

/-- The text of one property and what is found in it. Keys that stand for hooks may be kept from
being used without a value. -/
inductive IsProperty (plain : String → Prop) (value : ValueText) :
    List Char → List Property → Prop where
  | value {text trivia code : List Char} {key : String} {hooks : Option (List String)} :
      IsKey text key → IsTrivia trivia → value key code hooks →
        IsProperty plain value (text ++ (trivia ++ ':' :: code)) [⟨key, hooks⟩]
  | method {front text code : List Char} {key : String} :
      Modifies front text → IsKey text key → plain key → IsMethod code →
        IsProperty plain value (front ++ (text ++ code)) [⟨key, none⟩]
  | shorthand {text trivia : List Char} :
      isWord text = true → plain (String.ofList text) → IsTrivia trivia →
        IsProperty plain value (text ++ trivia) [⟨String.ofList text, none⟩]
  | computed {key trivia code : List Char} :
      IsCode .brackets key → IsTrivia trivia → IsCode .value code →
        IsProperty plain value ('[' :: (key ++ ']' :: (trivia ++ ':' :: code))) []
  | computedMethod {front key code : List Char} :
      Modifies front ['['] → IsCode .brackets key → IsMethod code →
        IsProperty plain value (front ++ '[' :: (key ++ ']' :: code)) []
  | spread {code : List Char} :
      IsCode .value code → IsProperty plain value ('.' :: '.' :: '.' :: code) []

/-- The text between the braces of an object literal. A comma may stand behind the last
property. -/
inductive IsProperties (plain : String → Prop) (value : ValueText) :
    List Char → List Property → Prop where
  | nil {trivia : List Char} : IsTrivia trivia → IsProperties plain value trivia []
  | last {trivia text : List Char} {found : List Property} :
      IsTrivia trivia → IsProperty plain value text found →
        IsProperties plain value (trivia ++ text) found
  | cons {trivia text rest : List Char} {found more : List Property} :
      IsTrivia trivia → IsProperty plain value text found → IsProperties plain value rest more →
        IsProperties plain value (trivia ++ (text ++ ',' :: rest)) (found ++ more)

section Keys

/-- A word ends before blanks and comments. -/
theorem IsTrivia.ends_word_of_ne_nil {trivia : List Char} (h : IsTrivia trivia)
    (hne : trivia ≠ []) (rest : List Char) : (trivia ++ rest).head?.any isWordChar = false := by
  have hslash : isWordChar '/' = false := not_isWordChar_of_mem (by decide)
  cases h with
  | nil => exact absurd rfl hne
  | blank hblank _ => simpa using not_isWordChar_of_isBlank hblank
  | lineComment | blockComment => simpa using hslash

theorem IsTrivia.ends_word {trivia rest : List Char} (h : IsTrivia trivia)
    (hrest : rest.head?.any isWordChar = false) :
    (trivia ++ rest).head?.any isWordChar = false := by
  by_cases hne : trivia = []
  · subst hne
    exact hrest
  · exact h.ends_word_of_ne_nil hne rest

theorem ends_word_of_isMark {c : Char} {rest : List Char} (h : isMark c = true) :
    (c :: rest).head?.any isWordChar = false := by
  simpa using not_isWordChar_of_isMark h

theorem isMark_colon : isMark ':' = true :=
  isMark_of_mem (by decide)

theorem IsKey.ne_nil {text : List Char} {key : String} (h : IsKey text key) : text ≠ [] := by
  cases h with
  | name hname =>
      rintro rfl
      cases hname
  | literal => exact List.cons_ne_nil _ _

theorem lexemes_trivia_mark {trivia rest : List Char} {c : Char} {lexs : List Lexeme}
    (htrivia : IsTrivia trivia) (hmark : isMark c = true) (hrest : lexemes rest = .ok lexs) :
    lexemes (trivia ++ c :: rest) = .ok (⟨.mark c, c :: rest⟩ :: lexs) := by
  rw [lexemes_congr (htrivia.skip _), lexemes_mark hmark, hrest]
  rfl

theorem lexemes_name {name rest : List Char} {lexs : List Lexeme} (hname : isWord name = true)
    (hends : rest.head?.any isWordChar = false) (hrest : lexemes rest = .ok lexs) :
    lexemes (name ++ rest) = .ok (⟨.word (String.ofList name), name ++ rest⟩ :: lexs) := by
  rw [lexemes_word hname hends, hrest]
  rfl

/-- A lexeme that spells a key. -/
def Lexeme.IsKey (lexeme : Lexeme) (key : String) : Prop :=
  lexeme.token = .word key ∨ (lexeme.token = .literal ∧ lexeme.spelled = .ok key)

theorem IsKey.exists_lexeme {text rest : List Char} {key : String} {lexs : List Lexeme}
    (h : IsKey text key) (hends : rest.head?.any isWordChar = false)
    (hrest : lexemes rest = .ok lexs) :
    ∃ lexeme : Lexeme, lexemes (text ++ rest) = .ok (lexeme :: lexs) ∧ lexeme.IsKey key := by
  cases h with
  | name hname => exact ⟨_, lexemes_name hname hends hrest, .inl rfl⟩
  | literal hquote hcontent =>
      obtain ⟨hblank, hslash⟩ := visible_of_isQuote hquote
      rw [List.cons_append, List.append_assoc, List.singleton_append,
        lexemes_of_visible hblank hslash (readToken_spelled hquote hcontent rest), hrest]
      refine ⟨_, rfl, .inr ⟨rfl, ?_⟩⟩
      simp only [Lexeme.spelled, hcontent.readLiteral_eq hquote]
      rfl

theorem Lexeme.IsKey.readKey_eq {lexeme : Lexeme} {key : String} {rest : List Lexeme}
    (h : lexeme.IsKey key) (hends : endsKey rest = true) :
    readKey (lexeme :: rest) = .ok (some key, rest) := by
  obtain ⟨token, source⟩ := lexeme
  rcases h with h | ⟨h, hspelled⟩
  · cases h
    simp [readKey, hends]
  · cases h
    rw [readKey, hspelled]
    rfl

/-- A word that is no key goes with what it stands before. -/
theorem readKey_modifier {name : String} {source : List Char} {lexs : List Lexeme}
    (hname : isModifier name = true) (hends : endsKey lexs = false) :
    readKey (⟨.word name, source⟩ :: lexs) = readKey lexs := by
  rw [readKey, hname, hends]
  simp

theorem Lexeme.IsKey.not_endsKey {lexeme : Lexeme} {key : String} (h : lexeme.IsKey key)
    (rest : List Lexeme) : endsKey (lexeme :: rest) = false := by
  obtain ⟨token, source⟩ := lexeme
  rcases h with h | ⟨h, -⟩ <;> cases h <;> rfl

theorem Lexeme.IsKey.afterMark?_eq_none {lexeme : Lexeme} {key : String} (h : lexeme.IsKey key)
    (rest : List Lexeme) : afterMark? '}' (lexeme :: rest) = none := by
  obtain ⟨token, source⟩ := lexeme
  rcases h with h | ⟨h, -⟩ <;> cases h <;> rfl

theorem isWord_of_isModifier {name : String} (h : isModifier name = true) :
    isWord name.toList = true := by
  simp only [isModifier, Bool.or_eq_true, decide_eq_true_eq] at h
  rcases h with (rfl | rfl) | rfl <;> decide +kernel

/-- What stands before the key of a method does not change which key is read. -/
theorem Modifies.exists_lexemes {front key rest : List Char} {lexs : List Lexeme}
    (h : Modifies front key) (hkey : key ≠ []) (hrest : lexemes (key ++ rest) = .ok lexs)
    (hends : endsKey lexs = false) (hopen : afterMark? '}' lexs = none) :
    ∃ more, lexemes (front ++ (key ++ rest)) = .ok more ∧ readKey more = readKey lexs ∧
      afterMark? '}' more = none := by
  rcases h with rfl | ⟨name, trivia, hname, htrivia, rfl, hword⟩
  · exact ⟨lexs, hrest, rfl, hopen⟩
  · have hhead : (trivia ++ (key ++ rest)).head?.any isWordChar = false := by
      cases trivia with
      | nil =>
          cases key with
          | nil => exact absurd rfl hkey
          | cons c key => exact hword
      | cons c trivia => exact hword
    have hlexs : lexemes (trivia ++ (key ++ rest)) = .ok lexs := by
      rw [lexemes_congr (htrivia.skip _), hrest]
    rw [List.append_assoc, lexemes_name (isWord_of_isModifier hname) hhead hlexs]
    refine ⟨_, rfl, ?_, rfl⟩
    rw [String.ofList_toList]
    exact readKey_modifier hname hends

end Keys

section Parts

variable {rest : List Char} {lexs : List Lexeme}

theorem isMark_of_separator {c : Char} (hc : c = ',' ∨ c = '}') : isMark c = true := by
  rcases hc with rfl | rfl <;> exact isMark_of_mem (by decide)

/-- A value ends at the comma or brace behind it. -/
theorem IsCode.exists_skipValue {code : List Char} {c : Char} (h : IsCode .value code)
    (hc : c = ',' ∨ c = '}') (hrest : lexemes rest = .ok lexs) :
    ∃ more, lexemes (code ++ c :: rest) = .ok more ∧
      skipValue [] more = .ok (⟨.mark c, c :: rest⟩ :: lexs) := by
  have hseparator : lexemes (c :: rest) = .ok (⟨.mark c, c :: rest⟩ :: lexs) :=
    lexemes_trivia_mark .nil (isMark_of_separator hc) hrest
  obtain ⟨more, hmore, hskips⟩ := h.exists_lexemes (by decide) hseparator
  refine ⟨more, hmore, ?_⟩
  rw [hskips.value [] fun _ => rfl]
  rcases hc with rfl | rfl <;> simp [skipValue, closing?]

/-- A group in brackets ends at its closing bracket. -/
theorem IsCode.exists_skipGroup {inner : List Char} {opening close : Char}
    (h : IsCode .brackets inner) (hopening : closing? opening = some close)
    (hrest : lexemes rest = .ok lexs) :
    ∃ more, lexemes (opening :: (inner ++ close :: rest)) =
        .ok (⟨.mark opening, opening :: (inner ++ close :: rest)⟩ :: more) ∧
      ∀ source, skipGroup [] (⟨.mark opening, source⟩ :: more) = .ok lexs := by
  obtain ⟨hmark, hclose⟩ := isMark_of_closing? hopening
  obtain ⟨hnone, hclosing⟩ := isClosing_of_closing? hopening
  have hlast : lexemes (close :: rest) = .ok (⟨.mark close, close :: rest⟩ :: lexs) :=
    lexemes_trivia_mark .nil hclose hrest
  obtain ⟨more, hmore, hskips⟩ := h.exists_lexemes (by decide) hlast
  refine ⟨more, lexemes_trivia_mark .nil hmark hmore, ?_⟩
  intro source
  calc
    skipGroup [] (⟨.mark opening, source⟩ :: more) = skipGroup [close] more := by
      simp [skipGroup, hopening]
    _ = skipGroup [close] (⟨.mark close, close :: rest⟩ :: lexs) :=
      hskips.group [close] (List.cons_ne_nil _ _)
    _ = .ok lexs := by simp [skipGroup, hnone, hclosing]

/-- The parameters and the body of a method are passed over. -/
theorem IsMethod.exists_lexemes {code : List Char} (h : IsMethod code)
    (hrest : lexemes rest = .ok lexs) :
    (code ++ rest).head?.any isWordChar = false ∧
      ∃ more, lexemes (code ++ rest) = .ok more ∧ endsKey more = true ∧
        ∀ reader key, readRest reader key more = .ok (none, lexs) := by
  obtain @⟨first, second, third, parameters, body, hfirst, hparameters, hsecond, hbody, hthird⟩ := h
  have hafter : lexemes (third ++ rest) = .ok lexs := by
    rw [lexemes_congr (hthird.skip _), hrest]
  obtain ⟨bodyLexs, hbodyLexs, hskipBody⟩ :=
    hbody.exists_skipGroup (by rfl : closing? '{' = some '}') hafter
  have hbetween := (lexemes_congr (hsecond.skip _)).trans hbodyLexs
  obtain ⟨parameterLexs, hparameterLexs, hskipParameters⟩ :=
    hparameters.exists_skipGroup (by rfl : closing? '(' = some ')') hbetween
  have hwhole := (lexemes_congr (hfirst.skip _)).trans hparameterLexs
  simp only [List.append_assoc, List.cons_append]
  refine ⟨hfirst.ends_word ?_, _, hwhole, rfl, ?_⟩
  · have hopening : isWordChar '(' = false :=
      not_isWordChar_of_isMark (isMark_of_mem (by decide))
    simpa using hopening
  · intro reader key
    rw [readRest, hskipParameters]
    dsimp only [bind, Except.bind]
    rw [hskipBody]
    rfl

end Parts

section Reading

variable {reader : ValueReader}

/-- What comes behind a property: a comma and more properties, or the end of the object. -/
def readOthers (reader : ValueReader) (found : List Property) (after : List Lexeme) :
    Except Fault (List Property × List Lexeme) :=
  match afterMark? ',' after, afterMark? '}' after with
  | some rest, _ => do
      let (more, final) ← readProperties reader rest
      return (found ++ more, final)
  | none, some rest => .ok (found, rest)
  | none, none => .error (separatorFault after)

variable {lexs rest : List Lexeme} {found : List Property} {source : List Char}

theorem readProperties_close (hclose : afterMark? '}' lexs = some rest) :
    readProperties reader lexs = .ok ([], rest) := by
  rw [readProperties, hclose]

theorem readProperties_open (hopen : afterMark? '}' lexs = none) :
    readProperties reader lexs =
      (readProperty reader lexs >>= fun read => readOthers reader read.1 read.2) := by
  rw [readProperties, hopen]
  dsimp only
  split
  · next h =>
      rw [h]
      rfl
  · next h =>
      rw [h, ok_bind, readOthers]
      split
      · next hcomma => rw [hcomma]
      · next hcomma hclose => rw [hcomma, hclose]
      · next hcomma hclose => rw [hcomma, hclose]

theorem readProperties_last (hopen : afterMark? '}' lexs = none)
    (hproperty : readProperty reader lexs = .ok (found, ⟨.mark '}', source⟩ :: rest)) :
    readProperties reader lexs = .ok (found, rest) := by
  rw [readProperties_open hopen, hproperty]
  rfl

theorem readProperties_more (hopen : afterMark? '}' lexs = none)
    (hproperty : readProperty reader lexs = .ok (found, ⟨.mark ',', source⟩ :: rest)) :
    readProperties reader lexs =
      (readProperties reader rest >>= fun read => .ok (found ++ read.1, read.2)) := by
  rw [readProperties_open hopen, hproperty]
  rfl

theorem hookValue_other (key : Option String)
    (h : key.any isHookKey = false ∨ afterMark? '{' lexs = none) :
    hookValue.read key lexs = skippedValue.read key lexs := by
  simp only [hookValue]
  split
  · next hkey =>
      rcases h with h | h
      · cases hkey.symm.trans h
      · cases h
  · rfl

theorem hookValue_object (key : Option String) (hkey : key.any isHookKey = true)
    (h : afterMark? '{' lexs = some rest) :
    hookValue.read key lexs = (readProperties skippedValue rest >>= fun read =>
      .ok (some (read.1.map Property.key), read.2)) := by
  unfold afterMark? at h
  split at h
  · split at h
    · next hbrace =>
        cases h
        subst hbrace
        simp only [hookValue, hkey]
        rfl
    · cases h
  · cases h

theorem readProperty_of {lexs afterKey rest : List Lexeme} {key : Option String}
    {hooks : Option (List String)} (hkey : readKey lexs = .ok (key, afterKey))
    (hrest : readRest reader key afterKey = .ok (hooks, rest)) :
    readProperty reader lexs = .ok (key.toList.map fun key => ⟨key, hooks⟩, rest) := by
  rw [readProperty, hkey]
  dsimp only [bind, Except.bind]
  rw [hrest]
  rfl

theorem readKey_computed {source : List Char} {lexs rest : List Lexeme}
    (h : skipGroup [] (⟨.mark '[', source⟩ :: lexs) = .ok rest) :
    readKey (⟨.mark '[', source⟩ :: lexs) = .ok (none, rest) := by
  rw [readKey, h]
  rfl

theorem readKey_spread {source : List Char} {second third : Lexeme} {lexs rest : List Lexeme}
    (h : skipValue [] lexs = .ok rest) :
    readKey (⟨.mark '.', '.' :: '.' :: '.' :: source⟩ :: second :: third :: lexs) =
      .ok (none, rest) := by
  have hdrop : (second :: third :: lexs).drop 2 = lexs := rfl
  rw [readKey, hdrop, h]
  · rfl
  · decide

/-- The reader passes over every value of this form, and finds the hooks that go with it. Under a
computed key it looks for none. -/
structure Reads (reader : ValueReader) (value : ValueText) : Prop where
  named : ∀ {key code hooks c rest lexs}, value key code hooks → c = ',' ∨ c = '}' →
    lexemes rest = .ok lexs → ∃ more, lexemes (code ++ c :: rest) = .ok more ∧
      reader.read (some key) more = .ok (hooks, ⟨.mark c, c :: rest⟩ :: lexs)
  computed : ∀ lexs, reader.read none lexs = skippedValue.read none lexs

variable {plain : String → Prop} {value : ValueText}

theorem IsProperty.exists_lexemes {text rest : List Char} {found : List Property} {c : Char}
    {lexs : List Lexeme} (hreader : Reads reader value) (h : IsProperty plain value text found)
    (hc : c = ',' ∨ c = '}') (hrest : lexemes rest = .ok lexs) :
    ∃ more, lexemes (text ++ c :: rest) = .ok more ∧ afterMark? '}' more = none ∧
      readProperty reader more = .ok (found, ⟨.mark c, c :: rest⟩ :: lexs) := by
  have hseparator : lexemes (c :: rest) = .ok (⟨.mark c, c :: rest⟩ :: lexs) :=
    lexemes_trivia_mark .nil (isMark_of_separator hc) hrest
  cases h with
  | value hkey htrivia hvalue =>
      obtain ⟨values, hvalues, hread⟩ := hreader.named hvalue hc hrest
      have hcolon := lexemes_trivia_mark htrivia isMark_colon hvalues
      obtain ⟨lexeme, hlexeme, hspells⟩ :=
        hkey.exists_lexeme (htrivia.ends_word (ends_word_of_isMark isMark_colon)) hcolon
      simp only [List.append_assoc, List.cons_append]
      exact ⟨_, hlexeme, hspells.afterMark?_eq_none _,
        readProperty_of (hspells.readKey_eq rfl) hread⟩
  | method hfront hkey _ hmethod =>
      obtain ⟨hends, methodLexs, hmethodLexs, hendsKey, hread⟩ := hmethod.exists_lexemes hseparator
      obtain ⟨lexeme, hlexeme, hspells⟩ := hkey.exists_lexeme hends hmethodLexs
      obtain ⟨more, hmore, hsame, hopen⟩ := hfront.exists_lexemes hkey.ne_nil hlexeme
        (hspells.not_endsKey _) (hspells.afterMark?_eq_none _)
      simp only [List.append_assoc]
      exact ⟨more, hmore, hopen,
        readProperty_of (hsame.trans (hspells.readKey_eq hendsKey)) (hread reader _)⟩
  | shorthand hname _ htrivia =>
      have hafter := (lexemes_congr (htrivia.skip _)).trans hseparator
      obtain ⟨lexeme, hlexeme, hspells⟩ := (IsKey.name hname).exists_lexeme
        (htrivia.ends_word (ends_word_of_isMark (isMark_of_separator hc))) hafter
      rw [List.append_assoc]
      refine ⟨_, hlexeme, hspells.afterMark?_eq_none _, readProperty_of (hspells.readKey_eq ?_) ?_⟩
      · rcases hc with rfl | rfl <;> rfl
      · rcases hc with rfl | rfl <;> rfl
  | computed hkey htrivia hcode =>
      obtain ⟨values, hvalues, hread⟩ := hcode.exists_skipValue hc hrest
      have hcolon := lexemes_trivia_mark htrivia isMark_colon hvalues
      obtain ⟨more, hmore, hgroup⟩ :=
        hkey.exists_skipGroup (by rfl : closing? '[' = some ']') hcolon
      have hvalue : reader.read none values = .ok (none, ⟨.mark c, c :: rest⟩ :: lexs) := by
        rw [hreader.computed]
        simp only [skippedValue, hread]
        rfl
      simp only [List.append_assoc, List.cons_append]
      exact ⟨_, hmore, rfl, readProperty_of (readKey_computed (hgroup _)) hvalue⟩
  | @computedMethod front key code hfront hkey hmethod =>
      obtain ⟨-, methodLexs, hmethodLexs, -, hread⟩ := hmethod.exists_lexemes hseparator
      obtain ⟨keyLexs, hkeyLexs, hgroup⟩ :=
        hkey.exists_skipGroup (by rfl : closing? '[' = some ']') hmethodLexs
      obtain ⟨more, hmore, hsame, hopen⟩ :=
        hfront.exists_lexemes (List.cons_ne_nil _ _) hkeyLexs rfl rfl
      simp only [List.append_assoc, List.cons_append]
      exact ⟨more, hmore, hopen,
        readProperty_of (hsame.trans (readKey_computed (hgroup _))) (hread reader none)⟩
  | spread hcode =>
      obtain ⟨values, hvalues, hread⟩ := hcode.exists_skipValue hc hrest
      have hdot : isMark '.' = true := isMark_of_mem (by decide)
      have hmore := lexemes_trivia_mark .nil hdot
        (lexemes_trivia_mark .nil hdot (lexemes_trivia_mark .nil hdot hvalues))
      refine ⟨_, hmore, rfl, ?_⟩
      apply readProperty_of (readKey_spread hread)
      rcases hc with rfl | rfl <;> rfl

theorem IsProperties.exists_lexemes {text rest : List Char} {found : List Property}
    {lexs : List Lexeme} (hreader : Reads reader value) (h : IsProperties plain value text found)
    (hrest : lexemes rest = .ok lexs) :
    ∃ more, lexemes (text ++ '}' :: rest) = .ok more ∧
      readProperties reader more = .ok (found, lexs) := by
  induction h with
  | nil htrivia =>
      have hclose := lexemes_trivia_mark htrivia (isMark_of_separator (.inr rfl)) hrest
      exact ⟨_, hclose, readProperties_close rfl⟩
  | last htrivia hproperty =>
      obtain ⟨more, hmore, hopen, hread⟩ := hproperty.exists_lexemes hreader (.inr rfl) hrest
      refine ⟨more, ?_, readProperties_last hopen hread⟩
      rw [List.append_assoc, lexemes_congr (htrivia.skip _), hmore]
  | cons htrivia hproperty _ ih =>
      obtain ⟨others, hothers, hreadOthers⟩ := ih
      obtain ⟨more, hmore, hopen, hread⟩ := hproperty.exists_lexemes hreader (.inl rfl) hothers
      refine ⟨more, ?_, ?_⟩
      · rw [List.append_assoc, lexemes_congr (htrivia.skip _), List.append_assoc, List.cons_append,
          hmore]
      · rw [readProperties_more hopen hread, hreadOthers]
        rfl

/-- Any code, in which no hooks are looked for. -/
def plainText : ValueText := fun _ code hooks => IsCode .value code ∧ hooks = none

/-- An object literal under a key of hooks, and any code under other keys. -/
inductive HookText : ValueText where
  | hooks {key : String} {first body last : List Char} {properties : List Property} :
      isHookKey key = true → IsTrivia first →
      IsProperties (fun _ => True) plainText body properties → IsTrivia last →
        HookText key (first ++ '{' :: (body ++ '}' :: last)) (some (properties.map Property.key))
  | plain {key : String} {code : List Char} :
      isHookKey key = false → IsCode .value code → HookText key code none

theorem reads_skippedValue : Reads skippedValue plainText where
  named := by
    rintro key code hooks c rest lexs ⟨hcode, rfl⟩ hc hrest
    obtain ⟨more, hmore, hskip⟩ := hcode.exists_skipValue hc hrest
    refine ⟨more, hmore, ?_⟩
    simp only [skippedValue, hskip]
    rfl
  computed _ := rfl

theorem reads_hookValue : Reads hookValue HookText where
  named := by
    intro key code hooks c rest lexs hvalue hc hrest
    cases hvalue with
    | hooks hkey hfirst hbody hlast =>
        have hseparator := lexemes_trivia_mark hlast (isMark_of_separator hc) hrest
        obtain ⟨inner, hinner, hread⟩ := hbody.exists_lexemes reads_skippedValue hseparator
        have hopening : isMark '{' = true := isMark_of_mem (by decide)
        simp only [List.append_assoc, List.cons_append]
        refine ⟨_, lexemes_trivia_mark hfirst hopening hinner, ?_⟩
        rw [hookValue_object (some key) hkey rfl, hread]
        rfl
    | plain hkey hcode =>
        obtain ⟨more, hmore, hskip⟩ := hcode.exists_skipValue hc hrest
        refine ⟨more, hmore, ?_⟩
        rw [hookValue_other (some key) (.inl hkey)]
        simp only [skippedValue, hskip]
        rfl
  computed lexs := rfl

end Reading

end FeatureCompiler.Script
