import FeatureCompiler.Catalog.Script
import FeatureCompiler.Proofs.Script.Rereading

/-!
Blanks and comments between the tokens of a step script. The module that is read from the script is
the same with and without them, or the same fault is found, save for two cases: the fault of an
escape that is cut off shows the characters behind its literal, and a comment of several lines ends
a line comment that the script has left open.
-/

namespace FeatureCompiler

namespace Script

theorem Agrees.eq_or_isCut {α : Type} {first second : Except Fault α}
    (h : Agrees Eq first second) :
    second = first ∨ ∃ fault other, first = .error fault ∧ second = .error other ∧
      fault.IsCut ∧ other.IsCut := by
  cases h with
  | ok heq => exact .inl (congrArg Except.ok heq.symm)
  | error hfaults =>
      rcases hfaults with rfl | ⟨hfault, hother⟩
      · exact .inl rfl
      · exact .inr ⟨_, _, rfl, rfl, hfault, hother⟩

end Script

namespace StepModule

open Script

/-- The module depends on the lexemes of a script only as far as they are read. -/
theorem ofScript_alike {source other : List Char} {lexs more : List Lexeme}
    (hlexs : lexemes source = .ok lexs) (hmore : lexemes other = .ok more)
    (h : List.Forall₂ Alike lexs more) (path : Path) :
    Agrees Eq (ofScript path (String.ofList source)) (ofScript path (String.ofList other)) := by
  rw [ofScript, ofScript, String.toList_ofList, String.toList_ofList, hlexs, hmore, ok_bind,
    ok_bind]
  have hobject := exportedObject?_alike h
  generalize exportedObject? lexs = left, exportedObject? more = right at hobject
  cases hobject with
  | none => exact .error (.inl rfl)
  | some halike =>
      apply (readObject_alike halike).bind
      rintro ⟨properties, _⟩ ⟨_, _⟩ ⟨rfl, -⟩
      exact agrees_refl _

/-- A blank or a comment between two tokens of a script changes nothing but the fault of an escape
that is cut off. At the end of a script that ends in a line comment, it must not end that comment
and go on in the next line. -/
theorem ofScript_insert {before inserted after : List Char} {lexs : List Lexeme}
    (h : IsInsertion before inserted after lexs)
    (hopen : after = [] → EndsInComment lexs (before ++ after) → '\n' ∉ inserted.dropLast)
    (path : Path) :
    ofScript path (String.ofList (before ++ (inserted ++ after))) =
        ofScript path (String.ofList (before ++ after)) ∨
      ∃ fault other, ofScript path (String.ofList (before ++ after)) = .error fault ∧
        ofScript path (String.ofList (before ++ (inserted ++ after))) = .error other ∧
        fault.IsCut ∧ other.IsCut := by
  obtain ⟨more, hmore, halike⟩ := lexemes_insert h hopen
  exact (ofScript_alike h.lexemes_eq hmore halike path).eq_or_isCut

/-- The lexemes of a script that exports one key. -/
def oneKeyLexemes : List Lexeme :=
  [⟨.word "export", "export default\x7bb\x7d".toList⟩, ⟨.word "default", "default\x7bb\x7d".toList⟩,
    ⟨.mark '{', "\x7bb\x7d".toList⟩, ⟨.word "b", "b\x7d".toList⟩, ⟨.mark '}', "\x7d".toList⟩]

theorem ofScript_insert_oneKey :
    IsInsertion "export default\x7b".toList " /* a:\n*/ ".toList "b\x7d".toList oneKeyLexemes ∧
      ofScript ⟨"a.js"⟩ "export default\x7b /* a:\n*/ b\x7d" =
        .ok ⟨⟨"a.js"⟩, ⟨"a.js"⟩, [], [], ["b"]⟩ := by
  have hcomment : ¬ ['*', '/'] <:+: [' ', 'a', ':', '\n'] := by decide
  have hkey : ⟨.word "b", "b\x7d".toList⟩ ∈ oneKeyLexemes := by decide +kernel
  have hinsertion : IsInsertion "export default\x7b".toList " /* a:\n*/ ".toList "b\x7d".toList
      oneKeyLexemes :=
    { isSpacing := .blockComment hcomment
      lexemes_eq := by decide +kernel
      isBoundary := .tokenStart hkey rfl
      dots := by decide }
  refine ⟨hinsertion, ?_⟩
  have hplain : ofScript ⟨"a.js"⟩ (String.ofList ("export default\x7b".toList ++ "b\x7d".toList)) =
      .ok ⟨⟨"a.js"⟩, ⟨"a.js"⟩, [], [], ["b"]⟩ := by decide +kernel
  have hafter : "b\x7d".toList ≠ [] := by decide
  rcases ofScript_insert hinsertion (fun hnil => absurd hnil hafter) ⟨"a.js"⟩ with
    hsame | ⟨_, _, hfault, _⟩
  · exact hsame.trans hplain
  · cases hplain.symm.trans hfault

/-- The lexemes of a script whose key has an escape that its backtick cuts off. -/
def cutKeyLexemes : List Lexeme :=
  [⟨.word "export", "export default \x7b `\\x`: 1 \x7d;".toList⟩,
    ⟨.word "default", "default \x7b `\\x`: 1 \x7d;".toList⟩,
    ⟨.mark '{', "\x7b `\\x`: 1 \x7d;".toList⟩, ⟨.literal, "`\\x`: 1 \x7d;".toList⟩,
    ⟨.mark ':', ": 1 \x7d;".toList⟩, ⟨.word "1", "1 \x7d;".toList⟩, ⟨.mark '}', "\x7d;".toList⟩,
    ⟨.mark ';', ";".toList⟩]

/-- The lexemes of a script that ends in a line comment. -/
def openCommentLexemes : List Lexeme :=
  [⟨.word "export", "export default x // foo".toList⟩,
    ⟨.word "default", "default x // foo".toList⟩, ⟨.word "x", "x // foo".toList⟩]

/-- The fault of an escape that is cut off shows a blank behind the literal. Behind a line comment
that is left open, a comment of two lines brings in an object literal. -/
theorem ofScript_insert_differs :
    (IsInsertion "export default \x7b `\\x`".toList [' '] ": 1 \x7d;".toList cutKeyLexemes ∧
      ofScript ⟨"a.js"⟩ "export default \x7b `\\x`: 1 \x7d;" = .error (.invalidEscape "`:") ∧
      ofScript ⟨"a.js"⟩ "export default \x7b `\\x` : 1 \x7d;" = .error (.invalidEscape "` ")) ∧
    (IsInsertion "export default x // foo".toList " /*\nconst x = \x7ba: 1\x7d */ ".toList []
        openCommentLexemes ∧
      ofScript ⟨"a.js"⟩ "export default x // foo" = .error .noDefaultExport ∧
      ofScript ⟨"a.js"⟩ "export default x // foo /*\nconst x = \x7ba: 1\x7d */ " =
        .ok ⟨⟨"a.js"⟩, ⟨"a.js"⟩, [], [], ["a"]⟩) := by
  have hblank : Text.isBlank ' ' = true := by decide
  have hcolon : ⟨.mark ':', ": 1 \x7d;".toList⟩ ∈ cutKeyLexemes := by decide +kernel
  have hcomment : ¬ ['*', '/'] <:+: "\nconst x = \x7ba: 1\x7d ".toList := by decide +kernel
  have hspacing : IsSpacing " /*\nconst x = \x7ba: 1\x7d */ ".toList :=
    Eq.mp (congrArg IsSpacing (by decide +kernel)) (IsSpacing.blockComment hcomment)
  have hcut : IsInsertion "export default \x7b `\\x`".toList [' '] ": 1 \x7d;".toList
      cutKeyLexemes :=
    { isSpacing := .blank hblank
      lexemes_eq := by decide +kernel
      isBoundary := .tokenStart hcolon rfl
      dots := by decide +kernel }
  have hopen : IsInsertion "export default x // foo".toList
      " /*\nconst x = \x7ba: 1\x7d */ ".toList [] openCommentLexemes :=
    { isSpacing := hspacing
      lexemes_eq := by decide +kernel
      isBoundary := .finish rfl
      dots := by decide +kernel }
  refine ⟨⟨hcut, ?_, ?_⟩, hopen, ?_, ?_⟩ <;> decide +kernel

end StepModule

end FeatureCompiler
