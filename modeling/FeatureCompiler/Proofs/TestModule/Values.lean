import FeatureCompiler.Proofs.TestModule.Skeleton

/-!
What the template literals of a test module stand for when it runs. Escapes are decoded, and a line
end that is written out in a literal is read as a line feed, be it a carriage return, a line feed,
or both. The literals of a module stand for the texts that it was made from, in their order, with
their carriage returns read in this way.
-/

namespace FeatureCompiler

open Script

namespace TestModule

/-- A text with a line feed for every carriage return, and for one with a line feed behind it. -/
def lineFeeds : List Char → List Char
  | [] => []
  | '\r' :: '\n' :: rest => '\n' :: lineFeeds rest
  | '\r' :: rest => '\n' :: lineFeeds rest
  | c :: rest => c :: lineFeeds rest

/-- What follows a backslash in a template literal. Unlike in other literals, a digit is no escape,
except for a zero that no digit follows. -/
def templateEscape? : List Char → Option (Option Char × List Char)
  | [] => none
  | '0' :: rest => if rest.head?.any Char.isDigit then none else some (some '\x00', rest)
  | c :: rest => if c.isDigit then none else (escape (c :: rest)).toOption

theorem templateEscape?_length_lt {text rest : List Char} {c : Option Char}
    (h : templateEscape? text = some (c, rest)) : rest.length < text.length := by
  unfold templateEscape? at h
  split at h
  · cases h
  · split at h
    · cases h
    · cases h
      simp
  · next d tail _ =>
      split at h
      · cases h
      · cases hescape : escape (d :: tail) with
        | error fault =>
            rw [hescape] at h
            cases h
        | ok read =>
            rw [hescape] at h
            cases h
            exact escape_length_lt hescape

/-- The value of a template literal without substitutions at run time, read from behind its opening
backtick, and what follows the literal. -/
def templateValue? (text : List Char) : Option (List Char × List Char) :=
  match text with
  | [] => none
  | '`' :: rest => some ([], rest)
  | '\\' :: rest =>
      match _hescape : templateEscape? rest with
      | none => none
      | some (c, after) => (templateValue? after).map fun read => (c.toList ++ read.1, read.2)
  | '$' :: '{' :: _ => none
  | '\r' :: '\n' :: rest => (templateValue? rest).map fun read => ('\n' :: read.1, read.2)
  | '\r' :: rest => (templateValue? rest).map fun read => ('\n' :: read.1, read.2)
  | c :: rest => (templateValue? rest).map fun read => (c :: read.1, read.2)
termination_by text.length
decreasing_by
  · have := templateEscape?_length_lt _hescape
    simp only [List.length_cons]
    omega
  all_goals simp only [List.length_cons]; omega

/-- The values of all template literals of a module, in their order. -/
def templateValues (text : List Char) : Except Fault (List (Option (List Char))) :=
  (lexemes text).map (List.filterMap fun lexeme =>
    match lexeme.source with
    | '`' :: rest => some ((templateValue? rest).map Prod.fst)
    | _ => none)

section Values

theorem lineFeeds_eq_self {text : List Char} (h : '\r' ∉ text) : lineFeeds text = text := by
  fun_induction lineFeeds text with
  | case1 => rfl
  | case2 | case3 => simp at h
  | case4 c rest _ _ ih => rw [ih (List.not_mem_of_not_mem_cons h)]

theorem not_mem_lineFeeds (text : List Char) : '\r' ∉ lineFeeds text := by
  fun_induction lineFeeds text with
  | case1 => exact List.not_mem_nil
  | case2 rest ih | case3 rest _ ih => simpa using ih
  | case4 c rest _ hreturn ih =>
      rw [List.mem_cons, not_or]
      exact ⟨fun h => hreturn h.symm, ih⟩

theorem lineFeeds_eq_self_iff {text : List Char} : lineFeeds text = text ↔ '\r' ∉ text := by
  constructor
  · intro h
    rw [← h]
    exact not_mem_lineFeeds text
  · exact lineFeeds_eq_self

/-- Every character is written after the other, behind a backslash if it needs one. -/
theorem escapeTemplate_cons (c : Char) (rest : List Char) :
    escapeTemplate (c :: rest) =
      (if c = '\\' ∨ c = '`' ∨ (c = '$' ∧ rest.head? = some '{') then ['\\', c] else [c]) ++
        escapeTemplate rest := by
  split
  · next hhidden =>
      rcases hhidden with rfl | rfl | ⟨rfl, hbrace⟩
      · rfl
      · rfl
      · obtain ⟨more, rfl⟩ := List.head?_eq_some_iff.mp hbrace
        rfl
  · next hplain =>
      rw [not_or, not_or] at hplain
      obtain ⟨hbackslash, hbacktick, hdollar⟩ := hplain
      rw [escapeTemplate]
      · rfl
      · exact hbackslash
      · exact hbacktick
      · rintro more rfl rfl
        exact hdollar ⟨rfl, rfl⟩

theorem templateValue?_hidden {c : Char} (hc : c = '\\' ∨ c = '`' ∨ c = '$') (rest : List Char) :
    templateValue? ('\\' :: c :: rest) =
      (templateValue? rest).map fun read => (c :: read.1, read.2) := by
  have hescape : templateEscape? (c :: rest) = some (some c, rest) := by
    rcases hc with rfl | rfl | rfl <;> rfl
  rw [templateValue?]
  split
  · next hnone => cases hescape.symm.trans hnone
  · next hsome =>
      cases hescape.symm.trans hsome
      rfl

theorem templateValue?_plain {c : Char} {rest : List Char} (hbackslash : c ≠ '\\')
    (hbacktick : c ≠ '`') (hdollar : ¬ (c = '$' ∧ rest.head? = some '{')) (hreturn : c ≠ '\r') :
    templateValue? (c :: rest) = (templateValue? rest).map fun read => (c :: read.1, read.2) := by
  rw [templateValue?]
  · exact hbacktick
  · exact hbackslash
  · rintro more rfl rfl
    exact hdollar ⟨rfl, rfl⟩
  · rintro more rfl rfl
    exact hreturn rfl
  · exact hreturn

/-- Of a text between backticks, only the carriage returns are not kept. -/
theorem templateValue?_escapeTemplate (text rest : List Char) :
    templateValue? (escapeTemplate text ++ '`' :: rest) = some (lineFeeds text, rest) := by
  fun_induction lineFeeds text with
  | case1 => rw [escapeTemplate, List.nil_append, templateValue?]
  | case2 text ih =>
      have hwritten : escapeTemplate ('\r' :: '\n' :: text) =
          '\r' :: '\n' :: escapeTemplate text := rfl
      rw [hwritten, List.cons_append, List.cons_append, templateValue?, ih]
      rfl
  | case3 text hline ih =>
      have hwritten : escapeTemplate ('\r' :: text) = '\r' :: escapeTemplate text := rfl
      rw [hwritten, List.cons_append, templateValue?, ih]
      · rfl
      · intro more hmore
        -- A line feed comes next in what is written only if it does in the text.
        have hhead : (escapeTemplate text ++ '`' :: rest).head? = some '\n' := by rw [hmore]; rfl
        obtain ⟨tail, htail⟩ := head?_escapeTemplate (by decide) (by decide) hhead
        exact hline tail htail
  | case4 c text hline hreturn ih =>
      rw [escapeTemplate_cons]
      split
      · next hhidden =>
          have hc : c = '\\' ∨ c = '`' ∨ c = '$' := hhidden.imp_right (Or.imp_right And.left)
          rw [List.append_assoc, List.cons_append, List.singleton_append,
            templateValue?_hidden hc, ih]
          rfl
      · next hplain =>
          rw [not_or, not_or] at hplain
          obtain ⟨hbackslash, hbacktick, hdollar⟩ := hplain
          rw [List.singleton_append, List.cons_append,
            templateValue?_plain hbackslash hbacktick ?_ hreturn, ih]
          · rfl
          · rintro ⟨hc, hhead⟩
            obtain ⟨more, rfl⟩ := head?_escapeTemplate (by decide) (by decide) hhead
            exact hdollar ⟨hc, rfl⟩

end Values

/-- Whatever follows the text, its template literals have these values, and then those of what
follows come. -/
def Emits (text : List Char) (values : List (Option (List Char))) : Prop :=
  ∀ rest, templateValues (text ++ rest) = (templateValues rest).map (values ++ ·)

section Literals

theorem templateValues_of_visible {c : Char} (hblank : Text.isBlank c = false) (hslash : c ≠ '/')
    (hbacktick : c ≠ '`') {rest after : List Char} {token : Token}
    (htoken : readToken c rest = .ok (token, after)) :
    templateValues (c :: rest) = templateValues after := by
  rw [templateValues, templateValues, lexemes_of_visible hblank hslash htoken]
  cases lexemes after with
  | error fault => rfl
  | ok lexs => simp [Except.map, hbacktick]

theorem ne_backtick_of_isWordChar {c : Char} (hc : isWordChar c = true) : c ≠ '`' :=
  ne_of_isWordChar hc (not_isWordChar_of_mem (by decide))

/-- A word can be entered at any of its characters. -/
theorem templateValues_dropWord (text : List Char) :
    templateValues (text.dropWhile isWordChar) = templateValues text := by
  cases text with
  | nil => rfl
  | cons c rest =>
      by_cases hc : isWordChar c = true
      · obtain ⟨hblank, hslash⟩ := visible_of_isWordChar hc
        rw [templateValues_of_visible hblank hslash (ne_backtick_of_isWordChar hc)
            (readToken_wordChar hc rest),
          List.dropWhile_cons_of_pos hc]
      · rw [List.dropWhile_cons_of_neg hc]

theorem templateValues_plain {c : Char}
    (hc : (Text.isBlank c || isWordChar c || isMark c) = true) (rest : List Char) :
    templateValues (c :: rest) = templateValues rest := by
  rw [Bool.or_eq_true, Bool.or_eq_true] at hc
  rcases hc with (hblank | hword) | hmark
  · rw [templateValues, lexemes_blank hblank, templateValues]
  · obtain ⟨hblank, hslash⟩ := visible_of_isWordChar hword
    rw [templateValues_of_visible hblank hslash (ne_backtick_of_isWordChar hword)
        (readToken_wordChar hword rest),
      templateValues_dropWord]
  · obtain ⟨hblank, hslash⟩ := visible_of_isMark hmark
    have hbacktick : c ≠ '`' := by
      rintro rfl
      simp [isMark] at hmark
    exact templateValues_of_visible hblank hslash hbacktick (readToken_mark hmark rest)

end Literals

namespace Emits

theorem nil : Emits [] [] := by
  intro rest
  cases h : templateValues rest <;> simp [Except.map, h]

theorem append {first second : List Char} {left right : List (Option (List Char))}
    (hfirst : Emits first left) (hsecond : Emits second right) :
    Emits (first ++ second) (left ++ right) := by
  intro rest
  rw [List.append_assoc, hfirst, hsecond]
  cases templateValues rest <;> simp [Except.map]

theorem append_string {first second : String} {left right : List (Option (List Char))}
    (hfirst : Emits first.toList left) (hsecond : Emits second.toList right) :
    Emits (first ++ second).toList (left ++ right) := by
  rw [String.toList_append]
  exact hfirst.append hsecond

theorem join {α : Type} {text : α → String} {values : α → List (Option (List Char))}
    (h : ∀ item, Emits (text item).toList (values item)) (items : List α) :
    Emits (String.join (items.map text)).toList (items.flatMap values) := by
  rw [String.toList_join]
  induction items with
  | nil => exact nil
  | cons item items ih => exact (h item).append ih

theorem templateValues_eq {text : List Char} {values : List (Option (List Char))}
    (h : Emits text values) : templateValues text = .ok values := by
  have hrest := h []
  rw [List.append_nil] at hrest
  rw [hrest, templateValues, lexemes_nil]
  simp [Except.map]

/-- No literal starts in words, blanks and marks. -/
theorem plain {text : List Char} (h : Spells.isPlain text = true) : Emits text [] := by
  induction text with
  | nil => exact nil
  | cons c text ih =>
      rw [Spells.isPlain, List.all_cons, Bool.and_eq_true] at h
      intro rest
      rw [List.cons_append, templateValues_plain h.1]
      exact ih h.2 rest

theorem mark {c : Char} (h : isMark c = true) : Emits [c] [] :=
  plain (by simp [Spells.isPlain, h])

theorem quoted {write : Char → List Char} (hwrite : ∀ c, SpellsChar '"' (write c) c)
    (text : List Char) : Emits ('"' :: text.flatMap write ++ ['"']) [] := by
  intro rest
  rw [List.cons_append, List.cons_append, List.append_assoc]
  exact (templateValues_of_visible (by decide) (by decide) (by decide)
    (readToken_flatMap hwrite text rest)).trans (nil rest)

theorem templateLiteral (text : String) :
    Emits (TestModule.templateLiteral text).toList [some (lineFeeds text.toList)] := by
  intro rest
  have htext : (TestModule.templateLiteral text).toList ++ rest =
      '`' :: (escapeTemplate text.toList ++ '`' :: rest) := by
    simp [TestModule.templateLiteral]
  rw [htext, templateValues, templateValues, lexemes_of_visible (by decide) (by decide)
    (readToken_escapeTemplate text.toList rest)]
  cases lexemes rest with
  | error fault => rfl
  | ok lexs => simp [Except.map, templateValue?_escapeTemplate]

end Emits

namespace Emits

theorem jsonString (text : List Char) : Emits (Json.writeString text) [] :=
  quoted spellsChar_writeChar text

theorem joined {α : Type} {text : α → List Char} (h : ∀ item, Emits (text item) [])
    (items : List α) : Emits (Text.joined [','] (items.map text)) [] := by
  have hcomma : Emits [','] [] := mark (isMark_of_mem (by decide))
  induction items with
  | nil => exact nil
  | cons item items ih =>
      cases items with
      | nil => exact h item
      | cons next items => exact ((h item).append hcomma).append ih

theorem stringLiteral (text : String) : Emits (TestModule.stringLiteral text).toList [] := by
  simpa [TestModule.stringLiteral, escapeString] using quoted spellsChar_escapeChar text.toList

theorem word {name : String} (h : isWord name.toList = true) : Emits name.toList [] := by
  rw [isWord, Bool.and_eq_true, List.all_eq_true] at h
  apply plain
  rw [Spells.isPlain, List.all_eq_true]
  intro c hc
  rw [h.2 c hc, Bool.or_true, Bool.true_or]

theorem names {names : List String} (hcomma : Emits ", ".toList [])
    (hnames : ∀ name ∈ names, isWord name.toList = true) :
    Emits (", ".intercalate names).toList [] := by
  induction names with
  | nil => exact nil
  | cons name names ih =>
      rw [List.forall_mem_cons] at hnames
      cases names with
      | nil => simpa using word hnames.1
      | cons next names =>
          have h := ((word hnames.1).append hcomma).append (ih hnames.2)
          simpa [List.intercalate_cons_cons] using h

end Emits

end TestModule

open TestModule

/-- The texts that stand in template literals when the callee is named. -/
def Callee.templateTexts : Callee → List String
  | .hook _ key => if isIdentifier key then [] else [key]
  | .step text => [text]

def PlannedTest.templateTexts (test : PlannedTest) : List String :=
  test.page.toList ++ test.name :: test.calls.flatMap fun call => call.callee.templateTexts

/-- The texts that stand in template literals of a module, in their order. -/
def TestPlan.templateTexts (plan : TestPlan) : List String :=
  plan.name :: plan.page.toList ++ plan.tests.flatMap PlannedTest.templateTexts

namespace TestModule

/-- What the literals for these texts stand for at run time. -/
def valuesOf (texts : List String) : List (Option (List Char)) :=
  texts.map fun text => some (lineFeeds text.toList)

/-- Smaller parts of what stands around the names, keys and values of a plan in its module. -/
def fixedParts : List String :=
  ["before", "after", ".", "[", "]", "test", ".page ", "const stepFiles = [", ", "]

theorem emits_fixed {text : String} (h : text ∈ fixedTokens.map Prod.fst) :
    Emits text.toList [] := by
  obtain ⟨entry, hentry, rfl⟩ := List.mem_map.mp h
  exact .plain (plain_fixedTokens entry hentry).1

theorem emits_part {text : String} (h : text ∈ fixedParts) : Emits text.toList [] := by
  have hplain : ∀ text ∈ fixedParts, Spells.isPlain text.toList = true := by decide +kernel
  exact .plain (hplain text h)

theorem emits_valueJson (value : AnnotationValue) : Emits value.toJson [] := by
  cases value with
  | single text => exact .jsonString text.toList
  | list items =>
      have hopen : Emits ['['] [] := .mark (isMark_of_mem (by decide))
      have hclose : Emits [']'] [] := .mark (isMark_of_mem (by decide))
      have hitems := Emits.joined (fun item : String => Emits.jsonString item.toList) items
      have h := (hopen.append hitems).append hclose
      exact h

theorem emits_toJson (set : AnnotationSet) : Emits set.toJson.toList [] := by
  have hopen : Emits ['{'] [] := .mark (isMark_of_mem (by decide))
  have hclose : Emits ['}'] [] := .mark (isMark_of_mem (by decide))
  have hcolon : Emits [':'] [] := .mark (isMark_of_mem (by decide))
  have hmember (entry : String × AnnotationValue) :
      Emits (Json.writeString entry.1.toList ++ ':' :: entry.2.toJson) [] :=
    (Emits.jsonString _).append (hcolon.append (emits_valueJson entry.2))
  have h := (hopen.append (Emits.joined hmember set.entries)).append hclose
  rw [AnnotationSet.toJson, String.toList_ofList, Json.writeObject, List.map_map]
  exact h

theorem emits_calleeExpression (callee : Callee) :
    Emits (calleeExpression callee).toList (valuesOf callee.templateTexts) := by
  have hclose : Emits "]".toList [] := emits_part (by simp [fixedParts])
  cases callee with
  | hook kind key =>
      have hkind : Emits kind.key.toList [] := by
        cases kind <;> exact emits_part (by simp [fixedParts, HookKind.key])
      rw [calleeExpression, Callee.templateTexts]
      split
      · next hkey =>
          have hdot : Emits (kind.key ++ ".").toList [] :=
            hkind.append_string (emits_part (by simp [fixedParts]))
          exact hdot.append_string (.word (isWord_of_isIdentifier hkey))
      · have hindex : Emits (kind.key ++ "[").toList [] :=
          hkind.append_string (emits_part (by simp [fixedParts]))
        exact (hindex.append_string (.templateLiteral key)).append_string hclose
  | step text =>
      have hindex : Emits "steps[".toList [] := emits_fixed (by simp [fixedTokens])
      exact (hindex.append_string (.templateLiteral text)).append_string hclose

theorem emits_renderCall (call : Call) :
    Emits (renderCall call).toList (valuesOf call.callee.templateTexts) := by
  have hawait : Emits "  await ".toList [] := emits_fixed (by simp [fixedTokens])
  have hopen : Emits "(".toList [] := emits_fixed (by simp [fixedTokens])
  have hend : Emits ")(t);\n".toList [] := emits_fixed (by simp [fixedTokens])
  have h := (((hawait.append_string (emits_calleeExpression call.callee)).append_string
    hopen).append_string (emits_toJson call.argument)).append_string hend
  rw [List.append_nil, List.append_nil, List.append_nil] at h
  exact h

theorem emits_page {lead : String} (hlead : Emits lead.toList []) (page : Option String) :
    Emits (match page with
      | some page => lead ++ templateLiteral page
      | none => "").toList (valuesOf page.toList) := by
  cases page with
  | none => exact .nil
  | some page => exact hlead.append_string (.templateLiteral page)

theorem emits_renderTest (test : PlannedTest) :
    Emits (renderTest test).toList (valuesOf test.templateTexts) := by
  have htest : Emits "test".toList [] := emits_part (by simp [fixedParts])
  have hopen : Emits "(".toList [] := emits_fixed (by simp [fixedTokens])
  have hasync : Emits ", async t => \x7b\n".toList [] := emits_fixed (by simp [fixedTokens])
  have hend : Emits "\x7d);\n".toList [] := emits_fixed (by simp [fixedTokens])
  have hlead : Emits ".page ".toList [] := emits_part (by simp [fixedParts])
  have hpage := emits_page hlead test.page
  have hcalls := Emits.join emits_renderCall test.calls
  have h := (((((htest.append_string hpage).append_string hopen).append_string
    (.templateLiteral test.name)).append_string hasync).append_string hcalls).append_string hend
  have hvalues : valuesOf test.templateTexts = [] ++ valuesOf test.page.toList ++ [] ++
      [some (lineFeeds test.name.toList)] ++ [] ++
      test.calls.flatMap (fun call => valuesOf call.callee.templateTexts) ++ [] := by
    simp [valuesOf, PlannedTest.templateTexts, List.map_flatMap]
  rw [hvalues]
  exact h

theorem emits_renderFixture (plan : TestPlan) :
    Emits (renderFixture plan).toList (valuesOf (plan.name :: plan.page.toList)) := by
  have hfixture : Emits "fixture ".toList [] := emits_fixed (by simp [fixedTokens])
  have hend : Emits ";\n".toList [] := emits_fixed (by simp [fixedTokens])
  have hlead : Emits "\n  .page ".toList [] := emits_fixed (by simp [fixedTokens])
  have hpage := emits_page hlead plan.page
  have h := ((hfixture.append_string (.templateLiteral plan.name)).append_string
    hpage).append_string hend
  rw [List.append_nil] at h
  exact h

theorem emits_imports (specifiers : List String) :
    Emits (String.join (specifiers.mapIdx renderImport)).toList [] := by
  have himport (numbered : String × Nat) :
      Emits (renderImport numbered.2 numbered.1).toList [] := by
    have hlead : Emits "import ".toList [] := emits_fixed (by simp [fixedTokens])
    have hfrom : Emits " from ".toList [] := emits_fixed (by simp [fixedTokens])
    have hend : Emits ";\n".toList [] := emits_fixed (by simp [fixedTokens])
    have h := (((hlead.append_string (.word (isWord_scriptName numbered.2))).append_string
      hfrom).append_string (.stringLiteral numbered.1)).append_string hend
    exact h
  have h := Emits.join himport specifiers.zipIdx
  rw [List.flatMap_eq_nil_iff.mpr fun _ _ => rfl] at h
  rw [List.mapIdx_eq_zipIdx_map]
  exact h

theorem emits_renderImports (specifiers : List String) :
    Emits (renderImports specifiers).toList [] := by
  have hline : Emits "\n".toList [] := emits_fixed (by simp [fixedTokens])
  have hlist : Emits "const stepFiles = [".toList [] := emits_part (by simp [fixedParts])
  have hnames :
      Emits (", ".intercalate ((List.range specifiers.length).map scriptName)).toList [] := by
    apply Emits.names (emits_part (by simp [fixedParts]))
    rw [List.forall_mem_map]
    exact fun index _ => isWord_scriptName index
  have hclose : Emits "];\n".toList [] := emits_fixed (by simp [fixedTokens])
  have hsteps : Emits "const steps = Object.assign(\x7b\x7d, ...stepFiles);\n".toList [] :=
    emits_fixed (by simp [fixedTokens])
  have hbefore : Emits (String.toList
      "const before = Object.assign(\x7b\x7d, ...stepFiles.map(s => s.before || \x7b\x7d));\n")
      [] :=
    emits_fixed (by simp [fixedTokens])
  have hafter : Emits (String.toList
      "const after = Object.assign(\x7b\x7d, ...stepFiles.map(s => s.after || \x7b\x7d));\n")
      [] :=
    emits_fixed (by simp [fixedTokens])
  have h := (((((((emits_imports specifiers).append_string hline).append_string
    hlist).append_string hnames).append_string hclose).append_string hsteps).append_string
      hbefore).append_string hafter
  exact h

end TestModule

/-- The template literals of a module stand for the texts of its plan, one after the other. -/
theorem TestPlan.templateValues_renderBody (plan : TestPlan) (specifiers : List String) :
    templateValues (plan.renderBody specifiers).toList = .ok (valuesOf plan.templateTexts) := by
  have hline : Emits "\n".toList [] := emits_fixed (by simp [fixedTokens])
  have htest (test : PlannedTest) :
      Emits ("\n" ++ renderTest test).toList (valuesOf test.templateTexts) :=
    hline.append_string (emits_renderTest test)
  have h := (((emits_renderImports specifiers).append_string hline).append_string
    (emits_renderFixture plan)).append_string (.join htest plan.tests)
  have hvalues : valuesOf plan.templateTexts =
      [] ++ [] ++ valuesOf (plan.name :: plan.page.toList) ++
        plan.tests.flatMap fun test => valuesOf test.templateTexts := by
    simp [valuesOf, TestPlan.templateTexts, List.map_flatMap]
  rw [hvalues]
  exact h.templateValues_eq

end FeatureCompiler
