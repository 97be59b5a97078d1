import FeatureCompiler.Proofs.Script.Spelling
import FeatureCompiler.TestModule.Render

/-!
The tokens of test modules. They follow from the shape of a plan alone: how many tests and calls it
has, which pages it opens, what kind of names it calls, and how many annotations of which form are
passed. All names, pages, step texts, annotations and import specifiers stand in literals, and none
of them can end its literal. The one text that shows in the tokens is a key that stands after a dot.
-/

namespace FeatureCompiler

open Script (Token Spells)

inductive CalleeShape where
  | dotted (kind : HookKind) (key : String)
  | indexed (kind : HookKind)
  | step
deriving Repr, DecidableEq

inductive ValueShape where
  | single
  | list (length : Nat)
deriving Repr, DecidableEq

structure CallShape where
  callee : CalleeShape
  argument : List ValueShape
deriving Repr, DecidableEq

structure TestShape where
  hasPage : Bool
  calls : List CallShape
deriving Repr, DecidableEq

structure PlanShape where
  hasPage : Bool
  tests : List TestShape
deriving Repr, DecidableEq

def Callee.shape : Callee → CalleeShape
  | .hook kind key => if TestModule.isIdentifier key then .dotted kind key else .indexed kind
  | .step _ => .step

def AnnotationValue.shape : AnnotationValue → ValueShape
  | .single _ => .single
  | .list items => .list items.length

def Call.shape (call : Call) : CallShape :=
  ⟨call.callee.shape, call.argument.entries.map fun entry => entry.2.shape⟩

def PlannedTest.shape (test : PlannedTest) : TestShape :=
  ⟨test.page.isSome, test.calls.map Call.shape⟩

def TestPlan.shape (plan : TestPlan) : PlanShape :=
  ⟨plan.page.isSome, plan.tests.map PlannedTest.shape⟩

open TestModule

def CalleeShape.tokens : CalleeShape → List Token
  | .dotted kind key => [.word kind.key, .mark '.', .word key]
  | .indexed kind => [.word kind.key, .mark '[', .literal, .mark ']']
  | .step => [.word "steps", .mark '[', .literal, .mark ']']

def ValueShape.tokens : ValueShape → List Token
  | .single => [.literal]
  | .list length =>
      [.mark '['] ++ List.intercalate [.mark ','] (List.replicate length [.literal]) ++ [.mark ']']

/-- A value after its key. -/
def ValueShape.memberTokens (value : ValueShape) : List Token :=
  [.literal] ++ ([.mark ':'] ++ value.tokens)

def CallShape.tokens (call : CallShape) : List Token :=
  [.word "await"] ++ (call.callee.tokens ++ [.mark '(']) ++
    ([.mark '{'] ++ List.intercalate [.mark ','] (call.argument.map ValueShape.memberTokens) ++
      [.mark '}']) ++
    [.mark ')', .mark '(', .word "t", .mark ')', .mark ';']

def pageTokens (hasPage : Bool) : List Token :=
  if hasPage then [.mark '.', .word "page", .literal] else []

def TestShape.tokens (test : TestShape) : List Token :=
  [.word "test"] ++ pageTokens test.hasPage ++ [.mark '('] ++ [.literal] ++
    [.mark ',', .word "async", .word "t", .mark '=', .mark '>', .mark '{'] ++
    test.calls.flatMap CallShape.tokens ++
    [.mark '}', .mark ')', .mark ';']

def importTokens (index : Nat) : List Token :=
  [.word "import", .word (scriptName index), .word "from", .literal, .mark ';']

/-- The beginning of a definition that merges objects. -/
def mergeTokens (name : String) : List Token :=
  [.word "const", .word name, .mark '=', .word "Object", .mark '.', .word "assign", .mark '(',
    .mark '{', .mark '}', .mark ',', .mark '.', .mark '.', .mark '.', .word "stepFiles"]

def hooksTokens (kind : HookKind) : List Token :=
  mergeTokens kind.key ++
    [.mark '.', .word "map", .mark '(', .word "s", .mark '=', .mark '>', .word "s", .mark '.',
      .word kind.key, .mark '|', .mark '|', .mark '{', .mark '}', .mark ')', .mark ')', .mark ';']

/-- What a module with so many imports starts with. -/
def importsTokens (count : Nat) : List Token :=
  (List.range count).flatMap importTokens ++
    [.word "const", .word "stepFiles", .mark '=', .mark '['] ++
    (List.intercalate [.mark ',']
        ((List.range count).map fun index => [.word (scriptName index)]) ++
      [.mark ']', .mark ';']) ++
    (mergeTokens "steps" ++ [.mark ')', .mark ';']) ++ hooksTokens .before ++ hooksTokens .after

/-- The tokens of a module with so many imports for a plan of this shape. -/
def PlanShape.skeleton (plan : PlanShape) (imports : Nat) : List Token :=
  importsTokens imports ++
    ([.word "fixture"] ++ [.literal] ++ pageTokens plan.hasPage ++ [.mark ';']) ++
    plan.tests.flatMap TestShape.tokens

theorem isWord_of_isIdentifier {key : String} (h : isIdentifier key = true) :
    Script.isWord key.toList = true := by
  unfold isIdentifier at h
  split at h
  · cases h
  · next c rest hkey =>
      rw [Bool.and_eq_true] at h
      obtain ⟨hfirst, hrest⟩ := h
      have hc : Script.isWordChar c = true := by
        simp only [Bool.or_eq_true] at hfirst
        simp only [Script.isWordChar, Bool.or_eq_true]
        rcases hfirst with (hletter | hunderscore) | hdollar
        · exact .inl (.inl (.inl hletter))
        · exact .inl (.inr hunderscore)
        · exact .inr hdollar
      rw [Script.isWord, hkey, List.all_cons, hc, hrest]
      rfl

theorem isWord_scriptName (index : Nat) : Script.isWord (scriptName index).toList = true := by
  have hdigits : (Nat.toDigits 10 index).all Script.isWordChar = true := by
    rw [List.all_eq_true]
    intro c hc
    have hdigit := Nat.isDigit_of_mem_toDigits (by decide) (by decide) hc
    exact Script.isWordChar_of_isAlphanum (by rw [Char.isAlphanum, hdigit, Bool.or_true])
  have hname : "stepFile".toList.all Script.isWordChar = true := by decide +kernel
  have htoList : (scriptName index).toList = "stepFile".toList ++ Nat.toDigits 10 index := by
    rw [scriptName, String.toList_append, ← Nat.toList_repr]
    rfl
  rw [Script.isWord, htoList, List.all_append, hname, hdigits]
  simp

theorem AnnotationValue.spells_toJson (value : AnnotationValue) :
    Spells value.toJson value.shape.tokens := by
  cases value with
  | single text => exact .jsonString text.toList
  | list items =>
      have hitems := Spells.joined (fun item : String => Spells.jsonString item.toList) items
      rw [List.map_const'] at hitems
      have hopening : Script.isMark '[' = true := Script.isMark_of_mem (by decide)
      have hclosing : Script.isMark ']' = true := Script.isMark_of_mem (by decide)
      have h := ((Spells.mark hopening).append hitems).append (.mark hclosing)
      exact h

theorem AnnotationSet.spells_toJson (set : AnnotationSet) :
    Spells set.toJson.toList
      ([.mark '{'] ++
        List.intercalate [.mark ','] (set.entries.map fun entry => entry.2.shape.memberTokens) ++
        [.mark '}']) := by
  have hcolon : Script.isMark ':' = true := Script.isMark_of_mem (by decide)
  have hopening : Script.isMark '{' = true := Script.isMark_of_mem (by decide)
  have hclosing : Script.isMark '}' = true := Script.isMark_of_mem (by decide)
  have hmember (entry : String × AnnotationValue) :
      Spells (Json.writeString entry.1.toList ++ ':' :: entry.2.toJson)
        entry.2.shape.memberTokens :=
    (Spells.jsonString _).append ((Spells.mark hcolon).append entry.2.spells_toJson)
  have h := ((Spells.mark hopening).append (Spells.joined hmember set.entries)).append
    (.mark hclosing)
  rw [AnnotationSet.toJson, String.toList_ofList, Json.writeObject, List.map_map]
  exact h

namespace TestModule

/-- What stands around the names, keys and values of a plan in its module, with its tokens. -/
def fixedTokens : List (String × List Token) :=
  [("(", [.mark '(']), (";\n", [.mark ';']), ("](", [.mark ']', .mark '(']),
    ("steps[", [.word "steps", .mark '[']), ("  await ", [.word "await"]),
    (")(t);\n", [.mark ')', .mark '(', .word "t", .mark ')', .mark ';']),
    (", async t => \x7b\n",
      [.mark ',', .word "async", .word "t", .mark '=', .mark '>', .mark '{']),
    ("\x7d);\n", [.mark '}', .mark ')', .mark ';']),
    ("test" ++ "" ++ "(", [.word "test", .mark '(']),
    ("test" ++ ".page ", [.word "test", .mark '.', .word "page"]),
    ("fixture ", [.word "fixture"]), ("\n  .page ", [.mark '.', .word "page"]),
    ("import ", [.word "import"]), (" from ", [.word "from"]), ("\n", []),
    ("\n" ++ "const stepFiles = [", [.word "const", .word "stepFiles", .mark '=', .mark '[']),
    ("];\n", [.mark ']', .mark ';']),
    ("const steps = Object.assign(\x7b\x7d, ...stepFiles);\n",
      mergeTokens "steps" ++ [.mark ')', .mark ';']),
    ("const before = Object.assign(\x7b\x7d, ...stepFiles.map(s => s.before || \x7b\x7d));\n",
      hooksTokens .before),
    ("const after = Object.assign(\x7b\x7d, ...stepFiles.map(s => s.after || \x7b\x7d));\n",
      hooksTokens .after)]

theorem plain_fixedTokens : ∀ entry ∈ fixedTokens, Spells.isPlain entry.1.toList = true ∧
    Spells.endsWords entry.1.toList = true ∧
    Spells.plainTokens [] entry.1.toList = entry.2 := by
  decide +kernel

theorem spells_fixed {text : String} {spelled : List Token} (h : (text, spelled) ∈ fixedTokens) :
    Spells text.toList spelled :=
  .plain (plain_fixedTokens (text, spelled) h)

theorem spells_open : Spells "(".toList [.mark '('] :=
  spells_fixed (by simp [fixedTokens])

theorem spells_end : Spells ";\n".toList [.mark ';'] :=
  spells_fixed (by simp [fixedTokens])

theorem spells_calleeExpression (callee : Callee) :
    Spells (calleeExpression callee ++ "(").toList (callee.shape.tokens ++ [.mark '(']) := by
  have hclose : Spells "](".toList [.mark ']', .mark '('] :=
    spells_fixed (by simp [fixedTokens])
  cases callee with
  | hook kind key =>
      rw [calleeExpression, Callee.shape]
      split
      · next hkey =>
          have hdot : Spells (kind.key ++ ".").toList [.word kind.key, .mark '.'] := by
            cases kind <;> exact .plain (by decide +kernel)
          have hname : Spells (key ++ "(").toList [.word key, .mark '('] :=
            .word_string (isWord_of_isIdentifier hkey) spells_open (by decide +kernel)
          rw [String.append_assoc]
          exact hdot.append_string hname
      · have hindex : Spells (kind.key ++ "[").toList [.word kind.key, .mark '['] := by
          cases kind <;> exact .plain (by decide +kernel)
        rw [String.append_assoc]
        exact (hindex.append_string (.templateLiteral key)).append_string hclose
  | step text =>
      have hindex : Spells "steps[".toList [.word "steps", .mark '['] :=
        spells_fixed (by simp [fixedTokens])
      rw [calleeExpression, String.append_assoc]
      exact (hindex.append_string (.templateLiteral text)).append_string hclose

theorem spells_renderCall (call : Call) : Spells (renderCall call).toList call.shape.tokens := by
  have hawait : Spells "  await ".toList [.word "await"] :=
    spells_fixed (by simp [fixedTokens])
  have hend : Spells ")(t);\n".toList [.mark ')', .mark '(', .word "t", .mark ')', .mark ';'] :=
    spells_fixed (by simp [fixedTokens])
  have h := ((hawait.append_string (spells_calleeExpression call.callee)).append_string
    call.argument.spells_toJson).append_string hend
  rw [← String.append_assoc] at h
  rw [renderCall, Call.shape, CallShape.tokens, List.map_map]
  exact h

theorem spells_renderTest (test : PlannedTest) :
    Spells (renderTest test).toList test.shape.tokens := by
  have hasync : Spells ", async t => \x7b\n".toList
      [.mark ',', .word "async", .word "t", .mark '=', .mark '>', .mark '{'] :=
    spells_fixed (by simp [fixedTokens])
  have hend : Spells "\x7d);\n".toList [.mark '}', .mark ')', .mark ';'] :=
    spells_fixed (by simp [fixedTokens])
  have hcalls := Spells.join spells_renderCall test.calls
  have h {head : String} {spelled : List Token} (hhead : Spells head.toList spelled) :=
    (((hhead.append_string (.templateLiteral test.name)).append_string hasync).append_string
      hcalls).append_string hend
  rw [PlannedTest.shape, TestShape.tokens, List.flatMap_map]
  unfold renderTest
  cases test.page with
  | none =>
      have hhead : Spells ("test" ++ "" ++ "(").toList [.word "test", .mark '('] :=
        spells_fixed (by simp [fixedTokens])
      exact h hhead
  | some page =>
      have hpage : Spells ("test" ++ ".page ").toList [.word "test", .mark '.', .word "page"] :=
        spells_fixed (by simp [fixedTokens])
      have hhead : Spells ("test" ++ (".page " ++ templateLiteral page) ++ "(").toList
          [.word "test", .mark '.', .word "page", .literal, .mark '('] := by
        rw [← String.append_assoc]
        exact (hpage.append_string (.templateLiteral page)).append_string spells_open
      exact h hhead

theorem spells_renderFixture (plan : TestPlan) :
    Spells (renderFixture plan).toList
      ([.word "fixture"] ++ [.literal] ++ pageTokens plan.page.isSome ++ [.mark ';']) := by
  have hfixture : Spells "fixture ".toList [.word "fixture"] :=
    spells_fixed (by simp [fixedTokens])
  have hname := hfixture.append_string (.templateLiteral plan.name)
  unfold renderFixture
  cases plan.page with
  | none =>
      have hempty : Spells "".toList [] := .nil
      exact (hname.append_string hempty).append_string spells_end
  | some page =>
      have hpage : Spells "\n  .page ".toList [.mark '.', .word "page"] :=
        spells_fixed (by simp [fixedTokens])
      exact (hname.append_string (hpage.append_string (.templateLiteral page))).append_string
        spells_end

theorem spells_renderImport (index : Nat) (specifier : String) :
    Spells (renderImport index specifier).toList (importTokens index) := by
  have himport : Spells "import ".toList [.word "import"] :=
    spells_fixed (by simp [fixedTokens])
  have hfrom : Spells " from ".toList [.word "from"] :=
    spells_fixed (by simp [fixedTokens])
  have hblank : Script.isWordChar ' ' = false := Script.not_isWordChar_of_isBlank (by decide)
  have hname : Spells (scriptName index ++ " from ").toList
      [.word (scriptName index), .word "from"] :=
    .word_string (isWord_scriptName index) hfrom (by simpa using hblank)
  have h := ((himport.append_string hname).append_string (.stringLiteral specifier)).append_string
    spells_end
  rw [← String.append_assoc] at h
  exact h

theorem spells_imports (specifiers : List String) :
    Spells (String.join (specifiers.mapIdx renderImport)).toList
      ((List.range specifiers.length).flatMap importTokens) := by
  have h := Spells.join (fun numbered : String × Nat => spells_renderImport numbered.2 numbered.1)
    specifiers.zipIdx
  rw [List.mapIdx_eq_zipIdx_map, List.range_eq_range', ← List.zipIdx_map_snd 0 specifiers,
    List.flatMap_map]
  exact h

theorem spells_renderImports (specifiers : List String) :
    Spells (renderImports specifiers).toList (importsTokens specifiers.length) := by
  have hlist : Spells ("\n" ++ "const stepFiles = [").toList
      [.word "const", .word "stepFiles", .mark '=', .mark '['] :=
    spells_fixed (by simp [fixedTokens])
  have hend : Spells "];\n".toList [.mark ']', .mark ';'] :=
    spells_fixed (by simp [fixedTokens])
  have hnames : Spells
      (", ".intercalate ((List.range specifiers.length).map scriptName) ++ "];\n").toList
      (List.intercalate [.mark ',']
        ((List.range specifiers.length).map fun index => [.word (scriptName index)]) ++
          [.mark ']', .mark ';']) := by
    have hwords : ∀ name ∈ (List.range specifiers.length).map scriptName,
        Script.isWord name.toList = true := by
      rw [List.forall_mem_map]
      exact fun index _ => isWord_scriptName index
    have hmark : Script.isWordChar ']' = false :=
      Script.not_isWordChar_of_isMark (Script.isMark_of_mem (by decide))
    have h := Spells.names hend (by simpa using hmark) hwords
    rw [List.map_map, ← String.toList_append] at h
    exact h
  have hsteps : Spells "const steps = Object.assign(\x7b\x7d, ...stepFiles);\n".toList
      (mergeTokens "steps" ++ [.mark ')', .mark ';']) :=
    spells_fixed (by simp [fixedTokens])
  have hbefore : Spells (String.toList
      "const before = Object.assign(\x7b\x7d, ...stepFiles.map(s => s.before || \x7b\x7d));\n")
      (hooksTokens .before) :=
    spells_fixed (by simp [fixedTokens])
  have hafter : Spells (String.toList
      "const after = Object.assign(\x7b\x7d, ...stepFiles.map(s => s.after || \x7b\x7d));\n")
      (hooksTokens .after) :=
    spells_fixed (by simp [fixedTokens])
  have h := (((((spells_imports specifiers).append_string hlist).append_string
    hnames).append_string hsteps).append_string hbefore).append_string hafter
  rw [← String.append_assoc, ← String.append_assoc] at h
  exact h

end TestModule

/-- The first line of a module is a comment, whatever the name of the source, if it is one line. -/
theorem spells_header {source : String} (hsource : '\n' ∉ source.toList) :
    Spells ("// Generated from " ++ source ++ ". Do not edit.\n").toList [] := by
  have htext : '\n' ∉ " Generated from ".toList ++ source.toList ++ ". Do not edit.".toList := by
    rw [List.mem_append, List.mem_append, not_or, not_or]
    exact ⟨⟨by decide, hsource⟩, by decide⟩
  have hline : ("// Generated from " ++ source ++ ". Do not edit.\n").toList =
      '/' :: '/' :: (" Generated from ".toList ++ source.toList ++ ". Do not edit.".toList) ++
        ['\n'] := by
    rw [String.toList_append, String.toList_append]
    simp
  rw [hline]
  exact .lineComment htext

/-- What a module has behind its first line. -/
def TestPlan.renderBody (plan : TestPlan) (specifiers : List String) : String :=
  renderImports specifiers ++ "\n" ++ renderFixture plan ++
    String.join (plan.tests.map fun test => "\n" ++ renderTest test)

theorem TestPlan.render_eq_header_append (plan : TestPlan) (source : String)
    (specifiers : List String) :
    plan.render source specifiers =
      "// Generated from " ++ source ++ ". Do not edit.\n" ++ plan.renderBody specifiers := by
  unfold TestPlan.render TestPlan.renderBody
  rw [← String.append_assoc, ← String.append_assoc, ← String.append_assoc]

theorem TestPlan.spells_renderBody (plan : TestPlan) (specifiers : List String) :
    Spells (plan.renderBody specifiers).toList (plan.shape.skeleton specifiers.length) := by
  have hline : Spells "\n".toList [] :=
    spells_fixed (by simp [fixedTokens])
  have htest (test : PlannedTest) : Spells ("\n" ++ renderTest test).toList test.shape.tokens :=
    hline.append_string (spells_renderTest test)
  have h := (((spells_renderImports specifiers).append_string hline).append_string
    (spells_renderFixture plan)).append_string (.join htest plan.tests)
  rw [List.append_nil] at h
  rw [PlanShape.skeleton, TestPlan.shape, List.flatMap_map]
  exact h

theorem TestPlan.spells_render (plan : TestPlan) {source : String} (hsource : '\n' ∉ source.toList)
    (specifiers : List String) :
    Spells (plan.render source specifiers).toList (plan.shape.skeleton specifiers.length) := by
  rw [render_eq_header_append]
  exact (spells_header hsource).append_string (plan.spells_renderBody specifiers)

/-- A module can always be cut into tokens, and these are the skeleton for the shape of its plan and
the number of its imports. So two plans of one shape give the same tokens, whatever their texts. -/
theorem TestPlan.tokens_render_eq_skeleton (plan : TestPlan) {source : String}
    (hsource : '\n' ∉ source.toList) (specifiers : List String) :
    Script.tokens (plan.render source specifiers).toList =
        .ok (plan.shape.skeleton specifiers.length) ∧
      ∀ (other : TestPlan) (otherSource : String) (otherSpecifiers : List String),
        '\n' ∉ otherSource.toList → other.shape = plan.shape →
          otherSpecifiers.length = specifiers.length →
            Script.tokens (other.render otherSource otherSpecifiers).toList =
              Script.tokens (plan.render source specifiers).toList := by
  have hplan := (plan.spells_render hsource specifiers).tokens_eq
  refine ⟨hplan, fun other otherSource otherSpecifiers hother hshape hlength => ?_⟩
  rw [hplan, (other.spells_render hother otherSpecifiers).tokens_eq, hshape, hlength]

/-- Two plans of one shape, the first of which has marks of the language in its texts. -/
def hostilePlan : TestPlan :=
  ⟨"`$\x7b", some "\\",
    [⟨"`);", none, [⟨.step, .step "$\x7b\\", .ofEntries [("\"", .list ["\\", "\n"])]⟩]⟩]⟩

def plainPlan : TestPlan :=
  ⟨"Shop", some "/",
    [⟨"Pay", none, [⟨.step, .step "pay", .ofEntries [("items", .list ["a", "b"])]⟩]⟩]⟩

theorem TestPlan.tokens_render_hostile_texts :
    '\n' ∉ "*/".toList ∧ '\n' ∉ "shop.feature".toList ∧
    Script.tokens (hostilePlan.render "*/" ["\";"]).toList =
      .ok (PlanShape.skeleton ⟨true, [⟨false, [⟨.step, [.list 2]⟩]⟩]⟩ 1) ∧
    Script.tokens (plainPlan.render "shop.feature" ["./shop.js"]).toList =
      Script.tokens (hostilePlan.render "*/" ["\";"]).toList := by
  have hhostile : '\n' ∉ "*/".toList := by decide
  have hshop : '\n' ∉ "shop.feature".toList := by decide
  have h := TestPlan.tokens_render_eq_skeleton hostilePlan hhostile ["\";"]
  exact ⟨hhostile, hshop, h.1, h.2 plainPlan "shop.feature" ["./shop.js"] hshop rfl rfl⟩

end FeatureCompiler
