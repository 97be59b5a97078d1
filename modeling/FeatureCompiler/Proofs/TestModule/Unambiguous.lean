import FeatureCompiler.Proofs.TestModule.Skeleton
import FeatureCompiler.Proofs.Text.Delimited

/-!
Test modules lose nothing of what they are made from. Every part of a module shows where it ends,
however much the texts in it look like the code around them: literals are closed by a quote that is
escaped inside, and of two ways in which a part can go on each starts with a character of its own.
So the source, the imports and the plan can all be told from the module, save for the kinds of the
calls, which are not rendered.
-/

namespace FeatureCompiler

open Text (Delimits NeverStarts)

/-- A literal that is read back as it was written shows where it ends. -/
theorem Script.delimits_literal {quote : Char} {body : List Char → List Char}
    (hread : ∀ text rest,
      Script.readLiteral quote (body text ++ quote :: rest) = .ok (text, rest)) :
    Delimits fun text => quote :: body text ++ [quote] := by
  apply Delimits.of_read fun text => Script.readLiteral quote text.tail
  intro text rest
  simpa using hread text rest

theorem Json.delimits_writeString : Delimits Json.writeString :=
  Script.delimits_literal (Script.readLiteral_flatMap (by decide) Script.spellsChar_writeChar)

theorem Json.neverStarts_writeString {stop : Char} (hstop : '"' ≠ stop) :
    NeverStarts stop Json.writeString :=
  fun _ => ⟨_, _, rfl, hstop⟩

namespace AnnotationValue

theorem delimits_toJson : Delimits toJson := by
  have hitems : Delimits fun items : List String =>
      Text.joined [','] (items.map fun item => Json.writeString item.toList) ++ [']'] :=
    Json.delimits_writeString.toList.joined
      (fun item => Json.neverStarts_writeString (by decide) item.toList) (by decide) []
  intro value value' rest other h
  cases value with
  | single text =>
      cases value' with
      | single text' =>
          obtain ⟨rfl, hrest⟩ := Json.delimits_writeString.toList h
          exact ⟨rfl, hrest⟩
      | list items' => exact absurd (List.cons.inj h).1 (by decide)
  | list items =>
      cases value' with
      | single text' => exact absurd (List.cons.inj h).1 (by decide)
      | list items' =>
          obtain ⟨rfl, hrest⟩ := hitems (List.cons.inj h).2
          exact ⟨rfl, hrest⟩

end AnnotationValue

/-- Both the entries of a set and their order can be told from what is passed to a call. -/
theorem AnnotationSet.delimits_toJson :
    Delimits fun set : AnnotationSet => set.toJson.toList := by
  have hmember : Delimits fun entry : String × AnnotationValue =>
      Json.writeString entry.1.toList ++ ':' :: entry.2.toJson := by
    rintro ⟨key, value⟩ ⟨key', value'⟩ rest other h
    simp only [List.append_assoc] at h
    obtain ⟨rfl, hvalue⟩ := Json.delimits_writeString.toList h
    obtain ⟨rfl, hrest⟩ := AnnotationValue.delimits_toJson (List.cons.inj hvalue).2
    exact ⟨rfl, hrest⟩
  have hentries := hmember.joined
    (fun entry => ⟨'"', _, rfl, (by decide : '"' ≠ '}')⟩) (by decide : '}' ≠ ',') []
  rintro ⟨entries⟩ ⟨entries'⟩ rest other h
  simp only [toJson, String.toList_ofList, Json.writeObject, List.map_map] at h
  obtain ⟨rfl, hrest⟩ := hentries (List.cons.inj h).2
  exact ⟨rfl, hrest⟩

/-- A call without its kind. -/
def Call.content (call : Call) : Callee × AnnotationSet :=
  (call.callee, call.argument)

/-- The name and page of a test, and its calls without their kinds. -/
def PlannedTest.content (test : PlannedTest) :
    String × Option String × List (Callee × AnnotationSet) :=
  (test.name, test.page, test.calls.map Call.content)

/-- All that a plan says but the kinds of its calls. -/
def TestPlan.content (plan : TestPlan) :
    String × Option String × List (String × Option String × List (Callee × AnnotationSet)) :=
  (plan.name, plan.page, plan.tests.map PlannedTest.content)

namespace TestModule

theorem delimits_stringLiteral : Delimits fun text : String => (stringLiteral text).toList := by
  have h := (Script.delimits_literal
    (Script.readLiteral_flatMap (by decide) Script.spellsChar_escapeChar)).toList
  simpa [stringLiteral, escapeString] using h

theorem delimits_templateLiteral :
    Delimits fun text : String => (templateLiteral text).toList := by
  have h := (Script.delimits_literal Script.readLiteral_escapeTemplate).toList
  simpa [templateLiteral] using h

/-- What a hook is called by, up to the arguments. A key that stands after a dot is told from one
in brackets by the character before it. -/
theorem delimits_hookExpression (kind : HookKind) : Delimits fun key : String =>
    (calleeExpression (.hook kind key) ++ "(").toList := by
  intro key key' rest other h
  simp only [calleeExpression] at h
  split at h
  · next hkey =>
      split at h
      · next hkey' =>
          simp only [String.toList_append, List.append_assoc, List.append_cancel_left_eq] at h
          have hstop : Script.isWordChar '(' = false := by decide +kernel
          have hword := Bool.and_eq_true_iff.mp (isWord_of_isIdentifier hkey)
          have hword' := Bool.and_eq_true_iff.mp (isWord_of_isIdentifier hkey')
          obtain ⟨hkeys, hrest⟩ := Text.append_cons_inj hstop hword.2 hword'.2 h
          exact ⟨String.toList_injective hkeys, hrest⟩
      · next hkey' =>
          simp only [String.toList_append, List.append_assoc, List.append_cancel_left_eq] at h
          exact absurd (List.cons.inj h).1 (by decide)
  · next hkey =>
      split at h
      · next hkey' =>
          simp only [String.toList_append, List.append_assoc, List.append_cancel_left_eq] at h
          exact absurd (List.cons.inj h).1 (by decide)
      · next hkey' =>
          simp only [String.toList_append, List.append_assoc, List.append_cancel_left_eq] at h
          obtain ⟨hkeys, hrest⟩ := delimits_templateLiteral h
          simp only [List.append_cancel_left_eq] at hrest
          exact ⟨hkeys, hrest⟩

/-- The character with which calls of a kind start. -/
def calleeInitial : Callee → Char
  | .hook .before _ => 'b'
  | .hook .after _ => 'a'
  | .step _ => 's'

theorem head?_calleeExpression (callee : Callee) (rest : List Char) :
    ((calleeExpression callee ++ "(").toList ++ rest).head? = some (calleeInitial callee) := by
  cases callee with
  | hook kind key =>
      simp only [calleeExpression]
      split <;> simp only [String.toList_append] <;> cases kind <;> rfl
  | step text =>
      simp only [calleeExpression, String.toList_append]
      rfl

theorem delimits_calleeExpression :
    Delimits fun callee : Callee => (calleeExpression callee ++ "(").toList := by
  intro callee callee' rest other h
  dsimp only at h
  have hinitial : calleeInitial callee = calleeInitial callee' := by
    apply Option.some.inj
    rw [← head?_calleeExpression callee rest, h, head?_calleeExpression]
  cases callee with
  | hook kind key =>
      cases callee' with
      | hook kind' key' =>
          have hkind : kind = kind' := by
            cases kind <;> cases kind' <;> first | rfl | simp [calleeInitial] at hinitial
          subst hkind
          obtain ⟨rfl, hrest⟩ := delimits_hookExpression kind h
          exact ⟨rfl, hrest⟩
      | step text' => cases kind <;> simp [calleeInitial] at hinitial
  | step text =>
      cases callee' with
      | hook kind' key' => cases kind' <;> simp [calleeInitial] at hinitial
      | step text' =>
          simp only [calleeExpression, String.toList_append, List.append_assoc,
            List.append_cancel_left_eq] at h
          obtain ⟨rfl, hrest⟩ := delimits_templateLiteral h
          simp only [List.append_cancel_left_eq] at hrest
          exact ⟨rfl, hrest⟩

/-- A call as it is rendered, whatever its kind. -/
def callChars (content : Callee × AnnotationSet) : List Char :=
  (renderCall ⟨.step, content.1, content.2⟩).toList

theorem delimits_callChars : Delimits callChars := by
  rintro ⟨callee, argument⟩ ⟨callee', argument'⟩ rest other h
  simp only [callChars, renderCall, String.toList_append, List.append_assoc,
    List.append_cancel_left_eq] at h
  simp only [← List.append_assoc (calleeExpression _).toList, ← String.toList_append] at h
  obtain ⟨rfl, hargument⟩ := delimits_calleeExpression h
  obtain ⟨rfl, hrest⟩ := AnnotationSet.delimits_toJson hargument
  exact ⟨rfl, List.append_cancel_left hrest⟩

/-- The page of a test or fixture, if there is one, after the text that introduces it. -/
def pageChars (lead : List Char) (page : Option String) : List Char :=
  page.elim [] fun page => lead ++ (templateLiteral page).toList

/-- A page may be left out where what follows starts unlike a page. -/
theorem pageChars_inj {lead stop : List Char} {first second : Char}
    (hlead : lead.head? = some first) (hstop : stop.head? = some second) (hne : first ≠ second)
    {page page' : Option String} {rest other : List Char}
    (h : pageChars lead page ++ (stop ++ rest) = pageChars lead page' ++ (stop ++ other)) :
    page = page' ∧ rest = other := by
  obtain ⟨lead, rfl⟩ := List.head?_eq_some_iff.mp hlead
  obtain ⟨stop, rfl⟩ := List.head?_eq_some_iff.mp hstop
  cases page with
  | none =>
      cases page' with
      | none => exact ⟨rfl, List.append_cancel_left h⟩
      | some page' => exact absurd (List.cons.inj h).1.symm hne
  | some page =>
      cases page' with
      | none => exact absurd (List.cons.inj h).1 hne
      | some page' =>
          simp only [pageChars, Option.elim, List.append_assoc, List.append_cancel_left_eq] at h
          obtain ⟨rfl, hrest⟩ := delimits_templateLiteral h
          exact ⟨rfl, List.append_cancel_left hrest⟩

def testChars (content : String × Option String × List (Callee × AnnotationSet)) : List Char :=
  "test".toList ++ (pageChars ".page ".toList content.2.1 ++ ("(".toList ++
    ((templateLiteral content.1).toList ++ (", async t => \x7b\n".toList ++
      (content.2.2.flatMap callChars ++ "\x7d);\n".toList)))))

theorem toList_renderTest (test : PlannedTest) :
    (renderTest test).toList = testChars test.content := by
  have hcalls : (String.join (test.calls.map renderCall)).toList =
      (test.calls.map Call.content).flatMap callChars := by
    rw [String.toList_join, List.flatMap_map, List.flatMap_map]
    rfl
  unfold renderTest
  cases htest : test.page <;>
    simp [testChars, pageChars, PlannedTest.content, hcalls, htest, String.toList_append]

theorem toList_renderFixture (plan : TestPlan) :
    (renderFixture plan).toList = "fixture ".toList ++ ((templateLiteral plan.name).toList ++
      (pageChars "\n  .page ".toList plan.page ++ ";\n".toList)) := by
  unfold renderFixture
  cases plan.page <;> simp [pageChars]

theorem delimits_calls : Delimits fun contents : List (Callee × AnnotationSet) =>
    contents.flatMap callChars ++ ['}'] := by
  have hstart : NeverStarts '}' callChars := by
    intro content
    simp only [callChars, renderCall, String.toList_append, List.append_assoc]
    exact ⟨' ', _, rfl, by decide⟩
  exact delimits_callChars.flatMap hstart

theorem delimits_testChars : Delimits testChars := by
  rintro ⟨name, page, calls⟩ ⟨name', page', calls'⟩ rest other h
  simp only [testChars, List.append_assoc, List.append_cancel_left_eq] at h
  obtain ⟨rfl, hname⟩ := pageChars_inj (by rfl) (by rfl) (by decide) h
  obtain ⟨rfl, hcalls⟩ := delimits_templateLiteral hname
  rw [List.append_cancel_left_eq] at hcalls
  obtain ⟨rfl, hrest⟩ := delimits_calls (by simpa using hcalls)
  exact ⟨rfl, by simpa using hrest⟩

theorem renderFixture_inj {plan plan' : TestPlan} {rest other : List Char}
    (h : (renderFixture plan).toList ++ rest = (renderFixture plan').toList ++ other) :
    plan.name = plan'.name ∧ plan.page = plan'.page ∧ rest = other := by
  simp only [toList_renderFixture, List.append_assoc, List.append_cancel_left_eq] at h
  obtain ⟨hname, hpage⟩ := delimits_templateLiteral h
  obtain ⟨hpage, hrest⟩ := pageChars_inj (by rfl) (by rfl) (by decide) hpage
  exact ⟨hname, hpage, hrest⟩

theorem delimits_imports : Delimits fun specifiers : List String =>
    (String.join (specifiers.mapIdx renderImport)).toList ++ ['\n'] := by
  have himport (index : Nat) :
      Delimits fun specifier : String => (renderImport index specifier).toList := by
    intro specifier specifier' rest other h
    simp only [renderImport, String.toList_append, List.append_assoc,
      List.append_cancel_left_eq] at h
    obtain ⟨rfl, hrest⟩ := delimits_stringLiteral h
    exact ⟨rfl, List.append_cancel_left hrest⟩
  have hstart (index : Nat) :
      NeverStarts '\n' fun specifier : String => (renderImport index specifier).toList := by
    intro specifier
    simp only [renderImport, String.toList_append, List.append_assoc]
    exact ⟨'i', _, rfl, by decide⟩
  have h := Delimits.numbered himport hstart
  have htoList (specifiers : List String) :
      (String.join (specifiers.mapIdx renderImport)).toList =
        (specifiers.mapIdx fun index specifier =>
          (renderImport index specifier).toList).flatten := by
    rw [String.toList_join, List.flatMap_def, List.mapIdx_eq_zipIdx_map,
      List.mapIdx_eq_zipIdx_map, List.map_map]
    rfl
  simpa only [htoList] using h

theorem delimits_renderImports :
    Delimits fun specifiers : List String => (renderImports specifiers).toList := by
  intro specifiers specifiers' rest other h
  have hspecifiers : specifiers = specifiers' := by
    simp only [renderImports, String.toList_append, List.append_assoc] at h
    simp only [← List.append_assoc (String.join _).toList] at h
    exact (delimits_imports h).1
  subst hspecifiers
  exact ⟨rfl, List.append_cancel_left h⟩

/-- The tests of a module go on to its end, and are rendered alike if they differ in nothing but the
kinds of their calls. -/
theorem renderTests_eq_iff {tests tests' : List PlannedTest} :
    (String.join (tests.map fun test => "\n" ++ renderTest test)).toList =
      (String.join (tests'.map fun test => "\n" ++ renderTest test)).toList ↔
    tests.map PlannedTest.content = tests'.map PlannedTest.content := by
  have hchars (tests : List PlannedTest) :
      (String.join (tests.map fun test => "\n" ++ renderTest test)).toList =
        (tests.map PlannedTest.content).flatMap fun content => '\n' :: testChars content := by
    simp only [String.toList_join, List.flatMap_map, String.toList_append, toList_renderTest]
    rfl
  have htest : Delimits fun content => '\n' :: testChars content := by
    intro content content' rest other h
    exact delimits_testChars (List.cons.inj h).2
  have hstart : NeverStarts ' ' fun content => '\n' :: testChars content :=
    fun content => ⟨'\n', _, rfl, by decide⟩
  rw [hchars, hchars]
  constructor
  · intro h
    -- Behind the last test nothing follows, so any character can be put there to end the run.
    have hended := congrArg (· ++ [' ']) h
    exact (htest.flatMap hstart (congrArg (· ++ []) hended)).1
  · intro h
    rw [h]

end TestModule

/-- The first line of a module names its source. -/
theorem header_inj {source source' : String} (hsource : '\n' ∉ source.toList)
    (hsource' : '\n' ∉ source'.toList) {rest other : List Char}
    (h : ("// Generated from " ++ source ++ ". Do not edit.\n").toList ++ rest =
      ("// Generated from " ++ source' ++ ". Do not edit.\n").toList ++ other) :
    source = source' ∧ rest = other := by
  have hline (source : String) (rest : List Char) :
      ("// Generated from " ++ source ++ ". Do not edit.\n").toList ++ rest =
        "// Generated from ".toList ++
          (source.toList ++ ". Do not edit.".toList ++ '\n' :: rest) := by
    rw [String.toList_append, String.toList_append]
    simp
  have hall {source : String} (hsource : '\n' ∉ source.toList) :
      (source.toList ++ ". Do not edit.".toList).all (· ≠ '\n') = true := by
    rw [List.all_append, Bool.and_eq_true, List.all_eq_true]
    refine ⟨fun c hc => ?_, by decide⟩
    rw [decide_eq_true_eq]
    rintro rfl
    exact hsource hc
  rw [hline, hline] at h
  obtain ⟨hnames, hrest⟩ := Text.append_cons_inj (by decide) (hall hsource) (hall hsource')
    (List.append_cancel_left h)
  exact ⟨String.toList_injective (List.append_cancel_right hnames), hrest⟩

open TestModule

theorem TestPlan.toList_render (plan : TestPlan) (source : String) (specifiers : List String) :
    (plan.render source specifiers).toList =
      ("// Generated from " ++ source ++ ". Do not edit.\n").toList ++
        ((renderImports specifiers).toList ++ ("\n".toList ++ ((renderFixture plan).toList ++
          (String.join (plan.tests.map fun test => "\n" ++ renderTest test)).toList))) := by
  have hparts (first second third fourth fifth : String) :
      (first ++ second ++ third ++ fourth ++ fifth).toList = first.toList ++
        (second.toList ++ (third.toList ++ (fourth.toList ++ fifth.toList))) := by
    simp
  exact hparts _ _ _ _ _

/-- Two modules are the same text exactly if they were made from the same source name, the same
specifiers in the same order and the same plan up to the kinds of its calls: its name and page, and
of every test the name, the page and the calls, each with what it calls and the entries of its
argument in their order. -/
theorem TestPlan.render_eq_render_iff {source source' : String} (hsource : '\n' ∉ source.toList)
    (hsource' : '\n' ∉ source'.toList) (plan plan' : TestPlan)
    (specifiers specifiers' : List String) :
    plan.render source specifiers = plan'.render source' specifiers' ↔
      source = source' ∧ specifiers = specifiers' ∧ plan.content = plan'.content := by
  constructor
  · intro h
    have htext := congrArg String.toList h
    rw [toList_render, toList_render] at htext
    obtain ⟨rfl, himports⟩ := header_inj hsource hsource' htext
    obtain ⟨rfl, hfixture⟩ := delimits_renderImports himports
    obtain ⟨hname, hpage, htests⟩ := renderFixture_inj (List.append_cancel_left hfixture)
    rw [content, content, hname, hpage, renderTests_eq_iff.mp htests]
    exact ⟨rfl, rfl, rfl⟩
  · rintro ⟨rfl, rfl, hcontent⟩
    rw [content, content, Prod.mk.injEq, Prod.mk.injEq] at hcontent
    obtain ⟨hname, hpage, htests⟩ := hcontent
    apply String.toList_injective
    rw [toList_render, toList_render, toList_renderFixture, toList_renderFixture, hname, hpage,
      renderTests_eq_iff.mpr htests]

/-- A test whose name imitates the end of a test and another test is not mistaken for two. -/
theorem TestPlan.render_ne_render_imitation :
    '\n' ∉ "shop.feature".toList ∧
    TestPlan.render ⟨"Shop", none, [⟨"a`, async t => \x7b\n\x7d);\n\ntest(`b", none, []⟩]⟩
        "shop.feature" ["./shop.js"] ≠
      TestPlan.render ⟨"Shop", none, [⟨"a", none, []⟩, ⟨"b", none, []⟩]⟩
        "shop.feature" ["./shop.js"] := by
  have hsource : '\n' ∉ "shop.feature".toList := by decide
  refine ⟨hsource, ?_⟩
  intro h
  have hcontent := ((TestPlan.render_eq_render_iff hsource hsource _ _ _ _).mp h).2.2
  have htests := congrArg (fun content => content.2.2.length) hcontent
  exact absurd htests (by decide)

end FeatureCompiler
