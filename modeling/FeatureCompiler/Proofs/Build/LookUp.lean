import FeatureCompiler.Proofs.Build.Composition
import FeatureCompiler.Proofs.TestModule.Values

/-!
What a compiled module looks up when it runs. The calls of a plan name what the catalog declares,
and a module names them by template literals. Such a literal stands for its text exactly if there is
no carriage return in it; a text with one is looked up with a line feed instead.
-/

namespace FeatureCompiler

open TestModule

theorem Document.declares_of_plan {document : Document} {catalog : Catalog} {plan : TestPlan}
    (h : document.plan catalog.lookup = .ok plan) :
    ∀ test ∈ plan.tests, ∀ call ∈ test.calls, catalog.Declares call.callee := by
  rw [Document.plan_eq_ok_iff] at h
  obtain ⟨hknown, rfl⟩ := h
  simp only [Catalog.knows_lookup_iff] at hknown
  rw [List.forall_mem_map]
  intro scenario hscenario
  obtain ⟨hbefore, hsteps, hafter⟩ :=
    Document.forall_mem_requestsOf.mp (hknown scenario hscenario)
  simp only [Document.testOf, Catalog.map_resolve_lookup, Document.callsOf,
    List.forall_mem_append, List.forall_mem_map]
  exact ⟨⟨hbefore, hsteps⟩, hafter⟩

namespace BuildOptions

/-- The template literals of a compiled module stand for the names, pages, steps and keys of the
plan that it was rendered from, in their order, with a line feed for every carriage return and for
one with a line feed behind it. So a literal stands for its text exactly if the text has no carriage
return, and only then a step or hook that the catalog declares is looked up under its own key. -/
theorem compileText_templateValues {options : BuildOptions} {file : Path} {text : String}
    {catalog : Catalog} {specifiers : List String} {javascript : String}
    (h : options.compileText file text catalog.lookup specifiers = .ok javascript) :
    ∃ document plan body,
      Document.parse text = .ok document ∧ document.plan catalog.lookup = .ok plan ∧
      (∀ test ∈ plan.tests, ∀ call ∈ test.calls, catalog.Declares call.callee) ∧
      javascript = "// Generated from " ++ options.sourceName file ++ ". Do not edit.\n" ++ body ∧
      templateValues body.toList =
        .ok (plan.templateTexts.map fun text => some (lineFeeds text.toList)) ∧
      ∀ text ∈ plan.templateTexts, lineFeeds text.toList = text.toList ↔ '\r' ∉ text.toList := by
  simp only [compileText, bind_eq_ok_iff, mapError_eq_ok_iff] at h
  obtain ⟨document, hdocument, plan, hplan, hjavascript⟩ := h
  refine ⟨document, plan, plan.renderBody specifiers, hdocument, hplan,
    Document.declares_of_plan hplan, ?_, plan.templateValues_renderBody specifiers,
    fun text _ => lineFeeds_eq_self_iff⟩
  rw [← Except.ok.inj hjavascript]
  exact plan.render_eq_header_append _ specifiers

def returnOptions : BuildOptions :=
  ⟨⟨"src"⟩, ⟨"out"⟩, [], false⟩

/-- A catalog with one step, in whose text a carriage return stands. -/
def returnCatalog : Catalog :=
  Catalog.empty.add ⟨⟨"a.js"⟩, ⟨"a.js"⟩, [], [], ["When I\rtest"]⟩

/-- A document that makes use of this step, as a text and as a plan. -/
def returnText : String :=
  "Feature: F\nScenario: S\nWhen I\rtest\n"

def returnPlan : TestPlan :=
  ⟨"F", none, [⟨"S", none, [⟨.step, .step "When I\rtest", ∅⟩]⟩]⟩

theorem compileText_returnText :
    returnOptions.compileText ⟨"src/t.feature"⟩ returnText returnCatalog.lookup ["../a.js"] =
      .ok (returnPlan.render "t.feature" ["../a.js"]) := by
  have hdocument : Document.parse returnText =
      .ok ⟨"F", ∅, [⟨"S", ∅, [⟨"When I\rtest", 3⟩]⟩]⟩ := by
    decide +kernel
  have hplan : Document.plan ⟨"F", ∅, [⟨"S", ∅, [⟨"When I\rtest", 3⟩]⟩]⟩
      returnCatalog.lookup =
      .ok returnPlan := by
    decide +kernel
  have hname : returnOptions.sourceName ⟨"src/t.feature"⟩ = "t.feature" := by
    decide +kernel
  rw [compileText, hdocument, hname]
  simp only [Except.mapError, ok_bind, hplan]
  rfl

theorem compileText_templateValues_returnText :
    returnOptions.compileText ⟨"src/t.feature"⟩ returnText returnCatalog.lookup ["../a.js"] =
      .ok (returnPlan.render "t.feature" ["../a.js"]) ∧
    ∃ document plan body,
      Document.parse returnText = .ok document ∧ document.plan returnCatalog.lookup = .ok plan ∧
      (∀ test ∈ plan.tests, ∀ call ∈ test.calls, returnCatalog.Declares call.callee) ∧
      returnPlan.render "t.feature" ["../a.js"] =
        "// Generated from " ++ returnOptions.sourceName ⟨"src/t.feature"⟩ ++
          ". Do not edit.\n" ++ body ∧
      templateValues body.toList =
        .ok (plan.templateTexts.map fun text => some (lineFeeds text.toList)) ∧
      ∀ text ∈ plan.templateTexts, lineFeeds text.toList = text.toList ↔ '\r' ∉ text.toList :=
  ⟨compileText_returnText, compileText_templateValues compileText_returnText⟩

/-- The step is declared and the document compiles, but the module looks the step up with a line
feed, under which nothing is declared. -/
theorem compileText_returnText_misses :
    returnOptions.compileText ⟨"src/t.feature"⟩ returnText returnCatalog.lookup ["../a.js"] =
      .ok ("// Generated from t.feature. Do not edit.\n" ++ returnPlan.renderBody ["../a.js"]) ∧
    returnPlan.templateTexts = ["F", "S", "When I\rtest"] ∧
    templateValues (returnPlan.renderBody ["../a.js"]).toList =
      .ok [some "F".toList, some "S".toList, some "When I\ntest".toList] ∧
    returnCatalog.Declares (.step "When I\rtest") ∧
    ¬ returnCatalog.Declares (.step "When I\ntest") := by
  refine ⟨?_, by decide, ?_, by decide, by decide⟩
  · rw [compileText_returnText, returnPlan.render_eq_header_append]
    rfl
  · rw [returnPlan.templateValues_renderBody]
    decide

end BuildOptions

end FeatureCompiler
