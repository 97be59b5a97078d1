import FeatureCompiler.Build.Compile
import FeatureCompiler.Proofs.Feature.Blocks
import FeatureCompiler.Proofs.Plan.Resolution

/-!
Compilation of a feature file part by part. The module for a preamble with several scenario blocks
is the module for the preamble, followed by the tests of the blocks in their order, and the test of
a block is the one that it has when it follows the preamble alone. So no block can change the test
of another, and a file compiles exactly if all its blocks do.
-/

namespace FeatureCompiler

open TestModule

theorem TestModule.renderFixture_congr {first second : TestPlan} (hname : first.name = second.name)
    (hpage : first.page = second.page) : renderFixture first = renderFixture second := by
  simp only [renderFixture, hname, hpage]

theorem TestPlan.render_eq_append (plan : TestPlan) (source : String) (specifiers : List String) :
    plan.render source specifiers =
      TestPlan.render { plan with tests := [] } source specifiers ++
        String.join (plan.tests.map fun test => "\n" ++ renderTest test) := by
  have hfixture : renderFixture { plan with tests := [] } = renderFixture plan :=
    renderFixture_congr rfl rfl
  unfold TestPlan.render
  rw [hfixture]
  rw [List.map_nil, String.join_nil]
  rw [String.append_empty]

/-- Of two lists that agree place by place on some property, one has it of all its members exactly
if the other has. -/
theorem forall_mem_iff_of_forall₂ {α β : Type} {p : α → Prop} {q : β → Prop} {items : List α}
    {others : List β} (h : List.Forall₂ (fun item other => p item ↔ q other) items others) :
    (∀ item ∈ items, p item) ↔ ∀ other ∈ others, q other := by
  induction h with
  | nil => simp
  | cons hhead _ ih => simp only [List.forall_mem_cons, hhead, ih]

namespace Document

theorem requestsOf_congr {first second : Document}
    (hannotations : first.annotations = second.annotations) (scenario : Scenario) :
    first.requestsOf scenario = second.requestsOf scenario := by
  simp only [requestsOf, annotationsFor, hannotations]

theorem testOf_congr {first second : Document}
    (hannotations : first.annotations = second.annotations) (lookup : Lookup)
    (scenario : Scenario) : first.testOf lookup scenario = second.testOf lookup scenario := by
  obtain ⟨_, annotations, _⟩ := first
  obtain ⟨_, _, _⟩ := second
  cases hannotations
  rfl

theorem testOf_unnumbered (document : Document) (lookup : Lookup) (scenario : Scenario) :
    document.testOf lookup scenario.unnumbered = document.testOf lookup scenario := by
  simp only [testOf, callsOf, annotationsFor, Scenario.unnumbered, List.map_map]
  rfl

/-- Whether a request for a step is known does not depend on the line of the step. -/
theorem knows_unnumbered_iff (document : Document) (lookup : Lookup) (scenario : Scenario) :
    (∀ name ∈ document.requestsOf scenario.unnumbered, lookup.Knows name.callee) ↔
      ∀ name ∈ document.requestsOf scenario, lookup.Knows name.callee := by
  simp only [forall_mem_requestsOf, annotationsFor, Scenario.unnumbered, List.forall_mem_map,
    UnknownName.callee]

theorem parse_of_blocks {preamble : String} {blocks : List String} (hpreamble : IsPreamble preamble)
    (hblocks : ∀ block ∈ blocks, IsScenarioBlock block) {feature : String}
    {annotations : AnnotationSet} {scenarios : List Scenario}
    (hread : Draft.start.addLines 1 (Text.lines (withoutMark preamble.toList)) =
      .ok (.titled feature annotations [] ∅))
    (hscenarios : List.Forall₂ Draft.ReadsScenario
      (blocks.map fun block => Text.lines block.toList) scenarios) :
    ∃ read : List Scenario, read.map Scenario.unnumbered = scenarios ∧
      Document.parse (preamble ++ String.join blocks) = .ok ⟨feature, annotations, read⟩ := by
  obtain ⟨read, hunnumbered, hadded⟩ :=
    Draft.addLines_of_blocks hscenarios feature annotations []
      (1 + (Text.lines (withoutMark preamble.toList)).length)
  refine ⟨read, hunnumbered, ?_⟩
  rw [Document.parse, lines_of_blocks hpreamble.1 fun block hblock => (hblocks block hblock).1,
    ofLines, bind_eq_ok_iff]
  refine ⟨_, Draft.addLines_append_eq_ok_iff.mpr ⟨_, hread, hadded⟩, ?_⟩
  simp only [mapError_eq_ok_iff, Draft.finish_titled_iff, List.append_nil, List.reverse_reverse,
    and_self]

theorem parse_ne_ok_of_refused {preamble : String} {blocks : List String}
    (hpreamble : IsPreamble preamble) (hblocks : ∀ block ∈ blocks, IsScenarioBlock block)
    (hrefused : Draft.Refused (Text.lines (withoutMark preamble.toList)) ∨
      ∃ block ∈ blocks, Draft.Refused (Text.lines block.toList)) (document : Document) :
    Document.parse (preamble ++ String.join blocks) ≠ .ok document := by
  rw [Document.parse, lines_of_blocks hpreamble.1 fun block hblock => (hblocks block hblock).1]
  intro h
  obtain ⟨final, hfinal, -⟩ := bind_eq_ok_iff.mp h
  rcases hrefused with hrefused | ⟨block, hblock, hrefused⟩
  · exact hrefused.append_right _ _ _ _ hfinal
  · have hmember : Text.lines block.toList ∈ blocks.map fun block => Text.lines block.toList :=
      List.mem_map.mpr ⟨block, hblock, rfl⟩
    exact (hrefused.flatten hmember).append_left _ _ _ _ hfinal

end Document

namespace BuildOptions

theorem compileText_eq_ok_iff {options : BuildOptions} {file : Path} {text : String}
    {lookup : Lookup} {specifiers : List String} {javascript : String} :
    options.compileText file text lookup specifiers = .ok javascript ↔
      ∃ document, Document.parse text = .ok document ∧
        (∀ scenario ∈ document.scenarios, ∀ name ∈ document.requestsOf scenario,
          lookup.Knows name.callee) ∧
        javascript = TestPlan.render
          ⟨document.feature, document.annotations.page?,
            document.scenarios.map (document.testOf lookup)⟩
          (options.sourceName file) specifiers := by
  simp only [compileText, bind_eq_ok_iff, mapError_eq_ok_iff, Document.plan_eq_ok_iff]
  constructor
  · rintro ⟨document, hdocument, plan, ⟨hknown, rfl⟩, hjavascript⟩
    exact ⟨document, hdocument, hknown, (Except.ok.inj hjavascript).symm⟩
  · rintro ⟨document, hdocument, hknown, rfl⟩
    exact ⟨document, hdocument, _, ⟨hknown, rfl⟩, rfl⟩

section

variable (options : BuildOptions) (file : Path) (lookup : Lookup) (specifiers : List String)
  {preamble : String} {blocks : List String}

/-- The outcome for blocks that can be read, in terms of what each of them says. -/
theorem compileText_of_blocks (hpreamble : IsPreamble preamble)
    (hblocks : ∀ block ∈ blocks, IsScenarioBlock block) {feature : String}
    {annotations : AnnotationSet} {scenarios : List Scenario}
    (hread : Draft.start.addLines 1 (Text.lines (Document.withoutMark preamble.toList)) =
      .ok (.titled feature annotations [] ∅))
    (hscenarios : List.Forall₂ Draft.ReadsScenario
      (blocks.map fun block => Text.lines block.toList) scenarios) (javascript : String) :
    options.compileText file (preamble ++ String.join blocks) lookup specifiers =
        .ok javascript ↔
      (∀ scenario ∈ scenarios,
        ∀ name ∈ Document.requestsOf ⟨feature, annotations, []⟩ scenario,
          lookup.Knows name.callee) ∧
      javascript =
        TestPlan.render ⟨feature, annotations.page?, []⟩ (options.sourceName file) specifiers ++
          String.join (scenarios.map fun scenario =>
            "\n" ++ renderTest (Document.testOf ⟨feature, annotations, []⟩ lookup scenario)) := by
  obtain ⟨read, rfl, hparse⟩ := Document.parse_of_blocks hpreamble hblocks hread hscenarios
  have hrequests (scenario : Scenario) :
      Document.requestsOf ⟨feature, annotations, read⟩ scenario =
        Document.requestsOf ⟨feature, annotations, []⟩ scenario :=
    Document.requestsOf_congr rfl scenario
  have htests (scenario : Scenario) :
      Document.testOf ⟨feature, annotations, read⟩ lookup scenario =
        Document.testOf ⟨feature, annotations, []⟩ lookup scenario :=
    Document.testOf_congr rfl lookup scenario
  simp only [compileText_eq_ok_iff, hparse, Except.ok.injEq, exists_eq_left', List.forall_mem_map,
    Document.knows_unnumbered_iff, Document.testOf_unnumbered, List.map_map, Function.comp_def,
    hrequests]
  rw [TestPlan.render_eq_append, List.map_map]
  simp only [Function.comp_def, htests]

theorem compileText_preamble (hpreamble : IsPreamble preamble) {feature : String}
    {annotations : AnnotationSet}
    (hread : Draft.start.addLines 1 (Text.lines (Document.withoutMark preamble.toList)) =
      .ok (.titled feature annotations [] ∅)) :
    options.compileText file preamble lookup specifiers =
      .ok (TestPlan.render ⟨feature, annotations.page?, []⟩ (options.sourceName file)
        specifiers) := by
  have hnone : ∀ block ∈ ([] : List String), IsScenarioBlock block := by simp
  have h := compileText_of_blocks options file lookup specifiers hpreamble hnone hread .nil
  simp only [String.join_nil, String.append_empty] at h
  exact (h _).mpr ⟨by simp, by simp⟩

/-- The outcomes for single blocks, in terms of what each of them says. -/
theorem compileText_each_block (hpreamble : IsPreamble preamble)
    (hblocks : ∀ block ∈ blocks, IsScenarioBlock block) {feature : String}
    {annotations : AnnotationSet} {scenarios : List Scenario}
    (hread : Draft.start.addLines 1 (Text.lines (Document.withoutMark preamble.toList)) =
      .ok (.titled feature annotations [] ∅))
    (hscenarios : List.Forall₂ Draft.ReadsScenario
      (blocks.map fun block => Text.lines block.toList) scenarios) :
    List.Forall₂ (fun block scenario => ∀ javascript,
      options.compileText file (preamble ++ block) lookup specifiers = .ok javascript ↔
        (∀ name ∈ Document.requestsOf ⟨feature, annotations, []⟩ scenario,
          lookup.Knows name.callee) ∧
        javascript =
          TestPlan.render ⟨feature, annotations.page?, []⟩ (options.sourceName file) specifiers ++
            ("\n" ++ renderTest (Document.testOf ⟨feature, annotations, []⟩ lookup scenario)))
      blocks scenarios := by
  have hreads := (List.forall₂_and_left _ _).mpr ⟨hblocks, List.forall₂_map_left_iff.mp hscenarios⟩
  refine hreads.imp ?_
  rintro block scenario ⟨hblock, hscenario⟩ javascript
  have hsingle : ∀ other ∈ [block], IsScenarioBlock other := by simpa using hblock
  have h := compileText_of_blocks options file lookup specifiers hpreamble hsingle hread
    (.cons hscenario .nil) javascript
  simpa using h

theorem compileText_ne_ok_of_refused (hpreamble : IsPreamble preamble)
    (hblocks : ∀ block ∈ blocks, IsScenarioBlock block)
    (hrefused : Draft.Refused (Text.lines (Document.withoutMark preamble.toList)) ∨
      ∃ block ∈ blocks, Draft.Refused (Text.lines block.toList)) (javascript : String) :
    options.compileText file (preamble ++ String.join blocks) lookup specifiers ≠
      .ok javascript := by
  intro h
  obtain ⟨document, hparse, -⟩ := compileText_eq_ok_iff.mp h
  exact Document.parse_ne_ok_of_refused hpreamble hblocks hrefused document hparse

/-- A part that is refused is refused as well when it stands alone. -/
theorem not_compileText_parts_of_refused (hpreamble : IsPreamble preamble)
    (hblocks : ∀ block ∈ blocks, IsScenarioBlock block)
    (hrefused : Draft.Refused (Text.lines (Document.withoutMark preamble.toList)) ∨
      ∃ block ∈ blocks, Draft.Refused (Text.lines block.toList)) :
    ¬ ((∃ base, options.compileText file preamble lookup specifiers = .ok base) ∧
      ∀ block ∈ blocks, ∃ javascript,
        options.compileText file (preamble ++ block) lookup specifiers = .ok javascript) := by
  rintro ⟨⟨base, hbase⟩, heach⟩
  rcases hrefused with hrefused | ⟨block, hblock, hrefused⟩
  · have hnone : ∀ block ∈ ([] : List String), IsScenarioBlock block := by simp
    have h := compileText_ne_ok_of_refused options file lookup specifiers hpreamble hnone
      (.inl hrefused) base
    simp only [String.join_nil, String.append_empty] at h
    exact h hbase
  · obtain ⟨javascript, hjavascript⟩ := heach block hblock
    have hsingle : ∀ other ∈ [block], IsScenarioBlock other := by simpa using hblocks block hblock
    have h := compileText_ne_ok_of_refused options file lookup specifiers hpreamble hsingle
      (.inr ⟨block, by simp, hrefused⟩) javascript
    simp only [String.join_cons, String.join_nil, String.append_empty] at h
    exact h hjavascript

end

/-- A preamble with blocks compiles exactly if the preamble compiles and each block does after it.
The module is then the one of the preamble, followed by what each block adds to that module when it
stands after the preamble alone. -/
theorem compileText_compositional (options : BuildOptions) (file : Path) (lookup : Lookup)
    (specifiers : List String) {preamble : String} {blocks : List String}
    (hpreamble : IsPreamble preamble) (hblocks : ∀ block ∈ blocks, IsScenarioBlock block) :
    ((∃ javascript, options.compileText file (preamble ++ String.join blocks) lookup specifiers =
        .ok javascript) ↔
      (∃ base, options.compileText file preamble lookup specifiers = .ok base) ∧
        ∀ block ∈ blocks, ∃ javascript,
          options.compileText file (preamble ++ block) lookup specifiers = .ok javascript) ∧
    ∀ javascript, options.compileText file (preamble ++ String.join blocks) lookup specifiers =
        .ok javascript →
      ∃ base tests, options.compileText file preamble lookup specifiers = .ok base ∧
        List.Forall₂ (fun block test =>
          options.compileText file (preamble ++ block) lookup specifiers = .ok (base ++ test))
          blocks tests ∧
        javascript = base ++ String.join tests := by
  -- Refusal is a property of the part alone, so it fails the whole and that part in the same way.
  by_cases hrefused : Draft.Refused (Text.lines (Document.withoutMark preamble.toList)) ∨
      ∃ block ∈ blocks, Draft.Refused (Text.lines block.toList)
  · have hwhole := compileText_ne_ok_of_refused options file lookup specifiers hpreamble hblocks
      hrefused
    have hparts := not_compileText_parts_of_refused options file lookup specifiers hpreamble
      hblocks hrefused
    exact ⟨iff_of_false (fun ⟨javascript, h⟩ => hwhole javascript h) hparts,
      fun javascript h => absurd h (hwhole javascript)⟩
  · rw [not_or] at hrefused
    obtain ⟨feature, annotations, hread⟩ :=
      (Draft.preamble_reads_or_refused hpreamble).resolve_right hrefused.1
    obtain ⟨scenarios, hreads⟩ := (Draft.blocks_read_or_refused hblocks).resolve_right hrefused.2
    have hbase := compileText_preamble options file lookup specifiers hpreamble hread
    have hwhole := compileText_of_blocks options file lookup specifiers hpreamble hblocks hread
      hreads
    have heach := compileText_each_block options file lookup specifiers hpreamble hblocks hread
      hreads
    have hparts : (∀ block ∈ blocks, ∃ javascript,
        options.compileText file (preamble ++ block) lookup specifiers = .ok javascript) ↔
          ∀ scenario ∈ scenarios, ∀ name ∈ Document.requestsOf ⟨feature, annotations, []⟩ scenario,
            lookup.Knows name.callee := by
      apply forall_mem_iff_of_forall₂
      refine heach.imp fun block scenario h => ?_
      simp only [h, exists_and_left, exists_eq, and_true]
    constructor
    · rw [hparts]
      simp only [hwhole, hbase, exists_and_left, exists_eq, and_true, true_and, Except.ok.injEq,
        exists_eq']
    · intro javascript h
      obtain ⟨hknown, rfl⟩ := (hwhole javascript).mp h
      refine ⟨_, _, hbase, ?_, rfl⟩
      rw [List.forall₂_map_right_iff]
      refine ((List.forall₂_and_left _ _).mpr ⟨hparts.mpr hknown, heach⟩).imp ?_
      rintro block scenario ⟨⟨other, hother⟩, hblock⟩
      exact (hblock _).mpr ⟨((hblock other).mp hother).1, rfl⟩

def shopCatalog : Catalog :=
  Catalog.empty.add ⟨⟨"shop.ts"⟩, ⟨"shop.js"⟩, ["open"], [], ["pay"]⟩

theorem compileText_compositional_two_blocks :
    IsPreamble "@before=open\nFeature: Shop\n" ∧
    (∀ block ∈ ["@url=/cart\nScenario: Pay\n  pay\n", "Scenario: Leave\n"],
      IsScenarioBlock block) ∧
    ∃ base tests,
      List.Forall₂ (fun block test =>
        compileText ⟨⟨"."⟩, ⟨"out"⟩, [], true⟩ ⟨"shop.feature"⟩
          ("@before=open\nFeature: Shop\n" ++ block)
          shopCatalog.lookup ["./shop.js"] = .ok (base ++ test))
        ["@url=/cart\nScenario: Pay\n  pay\n", "Scenario: Leave\n"] tests ∧
      compileText ⟨⟨"."⟩, ⟨"out"⟩, [], true⟩ ⟨"shop.feature"⟩
        ("@before=open\nFeature: Shop\n" ++
          String.join ["@url=/cart\nScenario: Pay\n  pay\n", "Scenario: Leave\n"])
        shopCatalog.lookup ["./shop.js"] =
          .ok (base ++ String.join tests) := by
  have htag {raw : List Char} {key : String} {value : List Char}
      (hraw : Line.classify raw = .ok (.tag key value)) : ∀ other ∈ [raw], IsTagLine other := by
    rintro other hother line hline
    obtain rfl := List.mem_singleton.mp hother
    exact .inl ⟨key, value, Except.ok.inj (hline.symm.trans hraw)⟩
  have hpreamble : IsPreamble "@before=open\nFeature: Shop\n" :=
    ⟨by decide, [_], _, _, [], rfl, htag rfl, rfl, by simp⟩
  have hpay : IsScenarioBlock "@url=/cart\nScenario: Pay\n  pay\n" := by
    refine ⟨by decide, [_], _, _, [_], rfl, htag rfl, rfl, ?_⟩
    intro raw hraw
    obtain rfl := List.mem_singleton.mp hraw
    exact ⟨_, rfl, .inl ⟨_, rfl⟩⟩
  have hleave : IsScenarioBlock "Scenario: Leave\n" :=
    ⟨by decide, [], _, _, [], rfl, by simp, rfl, by simp⟩
  have hblocks : ∀ block ∈ ["@url=/cart\nScenario: Pay\n  pay\n", "Scenario: Leave\n"],
      IsScenarioBlock block := by
    simp only [List.forall_mem_cons, List.not_mem_nil, false_implies, implies_true, and_true]
    exact ⟨hpay, hleave⟩
  refine ⟨hpreamble, hblocks, ?_⟩
  obtain ⟨-, hmodule⟩ := compileText_compositional ⟨⟨"."⟩, ⟨"out"⟩, [], true⟩ ⟨"shop.feature"⟩
    shopCatalog.lookup ["./shop.js"] hpreamble hblocks
  have hcompiles : ∃ javascript, compileText ⟨⟨"."⟩, ⟨"out"⟩, [], true⟩ ⟨"shop.feature"⟩
      ("@before=open\nFeature: Shop\n" ++
        String.join ["@url=/cart\nScenario: Pay\n  pay\n", "Scenario: Leave\n"])
      shopCatalog.lookup ["./shop.js"] = .ok javascript := by
    simp only [compileText_eq_ok_iff]
    refine ⟨_, _, rfl, ?_, rfl⟩
    decide +kernel
  obtain ⟨javascript, hjavascript⟩ := hcompiles
  obtain ⟨base, tests, -, htests, rfl⟩ := hmodule javascript hjavascript
  exact ⟨base, tests, htests, hjavascript⟩

end BuildOptions

end FeatureCompiler
