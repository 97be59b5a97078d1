import FeatureCompiler.Proofs.Build.Composition
import FeatureCompiler.Proofs.Feature.Spacing

/-!
Compilation of feature files in any layout. The numbers of its lines show in no generated module, so
a text compiles to the same module in whatever layout, or fails for the same reason, which may then
show in another line.
-/

namespace FeatureCompiler

/-- A name as it is asked for in any line. -/
def UnknownName.unnumbered : UnknownName → UnknownName
  | .hook kind key => .hook kind key
  | .step text _ => .step text 0

/-- An error without the number of the line in which it shows. -/
def CompileError.unnumbered : CompileError → CompileError
  | .parse file error => .parse file ⟨0, error.cause⟩
  | .unknown file name => .unknown file name.unnumbered
  | error => error

theorem UnknownName.callee_unnumbered (name : UnknownName) :
    name.unnumbered.callee = name.callee := by
  cases name <;> rfl

theorem Lookup.missing?_unnumbered (lookup : Lookup) (name : UnknownName) :
    lookup.missing? name.unnumbered = (lookup.missing? name).map UnknownName.unnumbered := by
  rw [missing?, missing?, name.callee_unnumbered]
  split <;> rfl

namespace Document

theorem requestsOf_unnumbered (document : Document) (scenario : Scenario) :
    document.unnumbered.requestsOf scenario.unnumbered =
      (document.requestsOf scenario).map UnknownName.unnumbered := by
  simp only [requestsOf, annotationsFor, unnumbered, Scenario.unnumbered, List.map_append,
    List.map_map]
  rfl

/-- The plan of a document is that of the document without the numbers of its lines. -/
theorem plan_unnumbered (document : Document) (lookup : Lookup) :
    (document.plan lookup).mapError UnknownName.unnumbered =
      document.unnumbered.plan lookup := by
  have hrequests : document.unnumbered.scenarios.flatMap document.unnumbered.requestsOf =
      (document.scenarios.flatMap document.requestsOf).map UnknownName.unnumbered := by
    rw [List.map_flatMap, unnumbered, List.flatMap_map]
    exact List.flatMap_congr fun scenario _ => requestsOf_unnumbered document scenario
  have hmissing (names : List UnknownName) :
      (names.map UnknownName.unnumbered).findSome? lookup.missing? =
        (names.findSome? lookup.missing?).map UnknownName.unnumbered := by
    rw [List.findSome?_map, List.map_findSome?]
    exact congrArg (names.findSome? ·) (funext lookup.missing?_unnumbered)
  have htests : document.unnumbered.scenarios.map (document.unnumbered.testOf lookup) =
      document.scenarios.map (document.testOf lookup) := by
    rw [unnumbered, List.map_map]
    apply List.map_congr_left
    intro scenario _
    exact (testOf_congr rfl lookup _).trans (document.testOf_unnumbered lookup scenario)
  rw [plan_eq_valueUnless, plan_eq_valueUnless, mapError_valueUnless, hrequests, hmissing, htests]
  rfl

end Document

namespace BuildOptions

theorem compileText_congr {first second : String}
    (h : Document.unnumberedOutcome (Document.parse first) =
      Document.unnumberedOutcome (Document.parse second))
    (options : BuildOptions) (file : Path) (lookup : Lookup) (specifiers : List String) :
    (options.compileText file first lookup specifiers).mapError CompileError.unnumbered =
      (options.compileText file second lookup specifiers).mapError CompileError.unnumbered := by
  -- The outcome can be told from the outcome of parsing without numbers.
  have hcompile (text : String) :
      (options.compileText file text lookup specifiers).mapError CompileError.unnumbered =
        ((Document.unnumberedOutcome (Document.parse text)).mapError fun cause =>
          CompileError.parse file ⟨0, cause⟩).bind fun document =>
            ((document.plan lookup).mapError (.unknown file)).map fun plan =>
              plan.render (options.sourceName file) specifiers := by
    rw [compileText, Document.unnumberedOutcome]
    cases Document.parse text with
    | error error => rfl
    | ok document =>
        simp only [Except.map, Except.mapError, bind, Except.bind, ← document.plan_unnumbered]
        cases document.plan lookup <;> rfl
  rw [hcompile first, hcompile second, h]

/-- Blank lines, comments, indents and the kind of line ends in a text without carriage returns
decide neither what it says and compiles to nor why it fails, the number of a line apart. -/
theorem compileText_relaid {mark body relaid : List Char}
    (hmark : mark = [] ∨ mark = ['\ufeff']) (hbody : ∀ c ∈ body, c ≠ '\r' ∧ c ≠ '\ufeff')
    (h : Relaid body relaid) :
    Document.unnumberedOutcome (Document.parse (String.ofList (mark ++ relaid))) =
        Document.unnumberedOutcome (Document.parse (String.ofList (mark ++ body))) ∧
      ∀ (options : BuildOptions) (file : Path) (lookup : Lookup) (specifiers : List String),
        (options.compileText file (String.ofList (mark ++ relaid)) lookup specifiers).mapError
            CompileError.unnumbered =
          (options.compileText file (String.ofList (mark ++ body)) lookup specifiers).mapError
            CompileError.unnumbered := by
  have hparse := Document.unnumberedOutcome_parse_relaid hmark hbody h
  exact ⟨hparse, compileText_congr hparse⟩

/-- A text with a byte-order mark, and another layout of it with a comment in front, other indents,
a blank line at the end and carriage returns. The step keeps the blank after it. -/
theorem compileText_relaid_sample :
    Relaid "Feature: A\nScenario: B\n  pay \n".toList
      "# top\r\n\tFeature: A\r\nScenario: B\r\npay \r\n \r\n".toList ∧
    Document.parse "\ufeffFeature: A\nScenario: B\n  pay \n" =
      .ok ⟨"A", ∅, [⟨"B", ∅, [⟨"pay ", 3⟩]⟩]⟩ ∧
    Document.unnumberedOutcome (Document.parse
        "\ufeff# top\r\n\tFeature: A\r\nScenario: B\r\npay \r\n \r\n") =
      Document.unnumberedOutcome (Document.parse "\ufeffFeature: A\nScenario: B\n  pay \n") ∧
    ∀ lookup : Lookup,
      (compileText ⟨⟨"."⟩, ⟨"out"⟩, [], true⟩ ⟨"a.feature"⟩
        "\ufeff# top\r\n\tFeature: A\r\nScenario: B\r\npay \r\n \r\n" lookup []).mapError
          CompileError.unnumbered =
      (compileText ⟨⟨"."⟩, ⟨"out"⟩, [], true⟩ ⟨"a.feature"⟩
        "\ufeffFeature: A\nScenario: B\n  pay \n" lookup []).mapError
          CompileError.unnumbered := by
  have hnothing : SaysNothing "# top".toList ∧ SaysNothing " ".toList := by
    constructor <;>
      simp [SaysNothing, Text.trimStart, Text.isBlank, Text.inRanges, Text.blankRanges]
  have hindent : IsIndent [] ∧ IsIndent "\t".toList ∧ IsIndent "  ".toList := by
    refine ⟨List.forall_mem_nil _, ?_, ?_⟩ <;>
      simp [IsIndent, Text.isBlank, Text.inRanges, Text.blankRanges]
  have h : Relaid "Feature: A\nScenario: B\n  pay \n".toList
      "# top\r\n\tFeature: A\r\nScenario: B\r\npay \r\n \r\n".toList := by
    have hcomment : LayoutChange (Text.pieces '\n' "Feature: A\nScenario: B\n  pay \n".toList)
        ["# top".toList, "Feature: A".toList, "Scenario: B".toList, "  pay ".toList, []] :=
      @LayoutChange.insert [] _ _ hnothing.1 (by decide)
    have htitle : LayoutChange
        ["# top".toList, "Feature: A".toList, "Scenario: B".toList, "  pay ".toList, []]
        ["# top".toList, "\tFeature: A".toList, "Scenario: B".toList, "  pay ".toList, []] :=
      @LayoutChange.indent ["# top".toList] _ [] "\t".toList "Feature: A".toList hindent.1
        hindent.2.1
    have hstep : LayoutChange
        ["# top".toList, "\tFeature: A".toList, "Scenario: B".toList, "  pay ".toList, []]
        ["# top".toList, "\tFeature: A".toList, "Scenario: B".toList, "pay ".toList, []] :=
      @LayoutChange.indent ["# top".toList, "\tFeature: A".toList, "Scenario: B".toList] [[]]
        "  ".toList [] "pay ".toList hindent.2.2 hindent.1
    have hblank : LayoutChange
        ["# top".toList, "\tFeature: A".toList, "Scenario: B".toList, "pay ".toList, []]
        ["# top".toList, "\tFeature: A".toList, "Scenario: B".toList, "pay ".toList, " ".toList,
          []] :=
      @LayoutChange.insert
        ["# top".toList, "\tFeature: A".toList, "Scenario: B".toList, "pay ".toList] [[]] _
        hnothing.2 (by decide)
    exact ⟨_, (((Relation.ReflTransGen.single hcomment).tail htitle).tail hstep).tail hblank,
      .returnFeed (.returnFeed (.returnFeed (.returnFeed (.returnFeed (.last [])))))⟩
  have hbody : ∀ c ∈ "Feature: A\nScenario: B\n  pay \n".toList, c ≠ '\r' ∧ c ≠ '\ufeff' := by
    simp
  obtain ⟨hparse, hcompile⟩ := compileText_relaid (.inr rfl) hbody h
  exact ⟨h, rfl, hparse, fun lookup => hcompile _ _ lookup []⟩

end BuildOptions

end FeatureCompiler
