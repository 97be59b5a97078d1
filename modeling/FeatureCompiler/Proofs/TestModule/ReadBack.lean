import FeatureCompiler.Proofs.Script.Properties
import FeatureCompiler.Proofs.TestModule.Skeleton
import FeatureCompiler.Proofs.Text.Replace

/-!
Literals and callees of test modules, read back. A literal is written by replacing one thing after
the other in the whole text, and it is read in one pass that undoes all of it. So the expression for
a callee, read as code, names that callee and no other.
-/

namespace FeatureCompiler

open Script

namespace TestModule

/-- What is replaced, in this order, to write a text between double quotes. -/
def stringReplacements : List (List Char × List Char) :=
  [(['\\'], ['\\', '\\']), (['"'], ['\\', '"']), (['\n'], ['\\', 'n']), (['\r'], ['\\', 'r']),
    (['\t'], ['\\', 't'])]

/-- What is replaced, in this order, to write a text between backticks. -/
def templateReplacements : List (List Char × List Char) :=
  [(['\\'], ['\\', '\\']), (['`'], ['\\', '`']), (['$', '{'], ['\\', '$', '{'])]

theorem escapeString_eq_replacedInTurn (text : List Char) :
    escapeString text = Text.replacedInTurn stringReplacements text := by
  simp only [Text.replacedInTurn, stringReplacements, List.foldl_cons, List.foldl_nil,
    Text.replaced_char, List.flatMap_assoc, escapeString]
  congr 1
  funext c
  unfold escapeChar
  split
  case h_6 => simp_all
  all_goals rfl

/-- A text after the replacements of single characters. -/
def escapeMarks (text : List Char) : List Char :=
  text.flatMap fun c => if c = '\\' then ['\\', '\\'] else if c = '`' then ['\\', '`'] else [c]

theorem escapeMarks_eq_replaced (text : List Char) :
    escapeMarks text =
      Text.replaced ['`'] ['\\', '`'] (Text.replaced ['\\'] ['\\', '\\'] text) := by
  rw [Text.replaced_char, Text.replaced_char, List.flatMap_assoc, escapeMarks]
  congr 1
  funext c
  split
  · rfl
  · simp

theorem escapeMarks_plain {c : Char} (hbackslash : c ≠ '\\') (hbacktick : c ≠ '`')
    (rest : List Char) : escapeMarks (c :: rest) = c :: escapeMarks rest := by
  rw [escapeMarks, List.flatMap_cons, if_neg hbackslash, if_neg hbacktick]
  rfl

/-- A brace is first in what is written only if it was first in the text. -/
theorem eq_cons_of_escapeMarks {text more : List Char} (h : escapeMarks text = '{' :: more) :
    ∃ rest, text = '{' :: rest := by
  cases text with
  | nil => cases h
  | cons c rest =>
      rw [escapeMarks, List.flatMap_cons] at h
      split at h
      · cases h
      · split at h
        · cases h
        · cases h
          exact ⟨rest, rfl⟩

theorem escapeTemplate_eq_replacedInTurn (text : List Char) :
    escapeTemplate text = Text.replacedInTurn templateReplacements text := by
  have hturn : Text.replacedInTurn templateReplacements text =
      Text.replaced ['$', '{'] ['\\', '$', '{'] (escapeMarks text) := by
    rw [escapeMarks_eq_replaced]
    rfl
  have hother {c : Char} (hc : c ≠ '$') (rest : List Char) : ¬ ['$', '{'] <+: c :: rest := by
    rintro ⟨more, hmore⟩
    exact hc (List.cons.inj hmore).1.symm
  rw [hturn]
  clear hturn
  fun_induction escapeTemplate text with
  | case1 => rfl
  | case2 rest ih =>
      have hmarks : escapeMarks ('\\' :: rest) = '\\' :: '\\' :: escapeMarks rest := rfl
      rw [hmarks, Text.replaced_cons (hother (by decide) _), Text.replaced_cons
        (hother (by decide) _), ih]
  | case3 rest ih =>
      have hmarks : escapeMarks ('`' :: rest) = '\\' :: '`' :: escapeMarks rest := rfl
      rw [hmarks, Text.replaced_cons (hother (by decide) _), Text.replaced_cons
        (hother (by decide) _), ih]
  | case4 rest ih =>
      have hmarks : escapeMarks ('$' :: '{' :: rest) = ['$', '{'] ++ escapeMarks rest := rfl
      rw [hmarks, Text.replaced_occurrence (by decide), ih]
      rfl
  | case5 c rest hbackslash hbacktick hplain ih =>
      rw [escapeMarks_plain hbackslash hbacktick, ih]
      refine (Text.replaced_cons ?_ _).symm
      -- What is written after a dollar sign starts with a brace only if the text itself does.
      rintro ⟨more, hmore⟩
      obtain ⟨hdollar, hbrace⟩ := List.cons.inj hmore
      obtain ⟨tail, htail⟩ := eq_cons_of_escapeMarks hbrace.symm
      exact hplain tail hdollar.symm htail

end TestModule

/-- The step or hook that is found under a key of an object. -/
def Callee.ofKey? (object key : String) : Option Callee :=
  if object = "steps" then some (.step key) else (HookKind.ofKey? object).map (.hook · key)

/-- What an expression names: a key of an object, after a dot or as a literal in brackets. -/
def Callee.ofExpression? (expression : List Char) : Option Callee :=
  match lexemes expression with
  | .ok [⟨.word object, _⟩, ⟨.mark '.', _⟩, ⟨.word key, _⟩] => ofKey? object key
  | .ok [⟨.word object, _⟩, ⟨.mark '[', _⟩, ⟨.literal, source⟩, ⟨.mark ']', _⟩] =>
      match Lexeme.spelled ⟨.literal, source⟩ with
      | .ok key => ofKey? object key
      | .error _ => none
  | _ => none

section Expressions

theorem ofKey?_kind (kind : HookKind) (key : String) :
    Callee.ofKey? kind.key key = some (.hook kind key) := by
  cases kind <;> rfl

theorem lexemes_indexed {object : String} (hobject : isWord object.toList = true) (key : String) :
    ∃ first second last, lexemes (object ++ "[" ++ TestModule.templateLiteral key ++ "]").toList =
      .ok [⟨.word object, first⟩, ⟨.mark '[', second⟩,
        ⟨.literal, '`' :: (TestModule.escapeTemplate key.toList ++ '`' :: [']'])⟩,
        ⟨.mark ']', last⟩] := by
  have htext : (object ++ "[" ++ TestModule.templateLiteral key ++ "]").toList =
      object.toList ++ '[' :: '`' :: (TestModule.escapeTemplate key.toList ++ '`' :: [']']) := by
    simp [TestModule.templateLiteral]
  have hopen : isMark '[' = true := isMark_of_mem (by decide)
  have hclose : isMark ']' = true := isMark_of_mem (by decide)
  rw [htext, lexemes_word hobject (ends_word_of_isMark hopen), lexemes_mark hopen,
    lexemes_of_visible (by decide) (by decide) (readToken_escapeTemplate key.toList [']']),
    lexemes_mark hclose, lexemes_nil, String.ofList_toList]
  exact ⟨_, _, _, rfl⟩

theorem lexemes_dotted {object key : String} (hobject : isWord object.toList = true)
    (hkey : isWord key.toList = true) :
    ∃ first second last, lexemes (object ++ "." ++ key).toList =
      .ok [⟨.word object, first⟩, ⟨.mark '.', second⟩, ⟨.word key, last⟩] := by
  have htext : (object ++ "." ++ key).toList = object.toList ++ '.' :: (key.toList ++ []) := by
    simp
  have hdot : isMark '.' = true := isMark_of_mem (by decide)
  rw [htext, lexemes_word hobject (ends_word_of_isMark hdot), lexemes_mark hdot,
    lexemes_word hkey rfl, lexemes_nil, String.ofList_toList, String.ofList_toList]
  exact ⟨_, _, _, rfl⟩

theorem ofExpression?_indexed {object : String} (hobject : isWord object.toList = true)
    (key : String) :
    Callee.ofExpression? (object ++ "[" ++ TestModule.templateLiteral key ++ "]").toList =
      Callee.ofKey? object key := by
  obtain ⟨first, second, last, hlexs⟩ := lexemes_indexed hobject key
  have hspelled : Lexeme.spelled
      ⟨.literal, '`' :: (TestModule.escapeTemplate key.toList ++ '`' :: [']'])⟩ = .ok key := by
    simp only [Lexeme.spelled, readLiteral_escapeTemplate]
    exact congrArg _ (String.ofList_toList)
  simp only [Callee.ofExpression?, hlexs, hspelled]

theorem ofExpression?_calleeExpression (callee : Callee) :
    Callee.ofExpression? (TestModule.calleeExpression callee).toList = some callee := by
  cases callee with
  | step text =>
      exact ofExpression?_indexed (by decide +kernel : isWord "steps".toList = true) text
  | hook kind key =>
      have hkind : isWord kind.key.toList = true := by
        cases kind <;> decide +kernel
      rw [TestModule.calleeExpression]
      split
      · next hkey =>
          obtain ⟨first, second, last, hlexs⟩ := lexemes_dotted hkind (isWord_of_isIdentifier hkey)
          simp only [Callee.ofExpression?, hlexs, ofKey?_kind]
      · rw [ofExpression?_indexed hkind, ofKey?_kind]

end Expressions

/-- Writing a literal and reading it are inverse. What the replacements make of a text is read back
as that text, from between backticks and from between double quotes, and no reader goes on behind
the closing quote. So the expression for a callee names it again. -/
theorem TestModule.literals_read_back (text rest : List Char) (callee : Callee) :
    (escapeTemplate text = Text.replacedInTurn templateReplacements text ∧
      readLiteral '`' (escapeTemplate text ++ '`' :: rest) = .ok (text, rest) ∧
      skipFrames [.template] (escapeTemplate text ++ '`' :: rest) = .ok rest) ∧
    (escapeString text = Text.replacedInTurn stringReplacements text ∧
      readLiteral '"' (escapeString text ++ '"' :: rest) = .ok (text, rest)) ∧
    Callee.ofExpression? (calleeExpression callee).toList = some callee := by
  refine ⟨⟨escapeTemplate_eq_replacedInTurn text, readLiteral_escapeTemplate text rest, ?_⟩,
    ⟨escapeString_eq_replacedInTurn text, ?_⟩, ofExpression?_calleeExpression callee⟩
  · rw [skipFrames_escapeTemplate, skipFrames]
  · exact readLiteral_flatMap (by decide) spellsChar_escapeChar text rest

end FeatureCompiler
