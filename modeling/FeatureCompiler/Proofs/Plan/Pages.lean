import FeatureCompiler.Proofs.Annotation.Insertion
import FeatureCompiler.Proofs.Plan.Resolution

/-!
The pages that tests open. A test of a plan opens its own page, or else the page of the whole plan,
and a planned test has a page of its own only where the two differ. So a test opens the page that
the annotations of its scenario name after merging, as long as they name one. A list names no page:
a scenario that puts a list over the page of its document does not get rid of that page.
-/

namespace FeatureCompiler

/-- The page that a test of the plan opens. -/
def TestPlan.openedPage (plan : TestPlan) (test : PlannedTest) : Option String :=
  test.page.or plan.page

namespace Document

theorem exists_scenario_of_mergedScenarios {document : Document} {i : Nat}
    {merged : MergedScenario} (h : document.mergedScenarios[i]? = some merged) :
    ∃ scenario, document.scenarios[i]? = some scenario ∧
      merged = ⟨scenario, document.annotations, document.annotationsFor scenario⟩ := by
  rw [mergedScenarios, List.getElem?_map, Option.map_eq_some_iff] at h
  obtain ⟨scenario, hscenario, rfl⟩ := h
  exact ⟨scenario, hscenario, rfl⟩

theorem page?_annotationsFor (document : Document) (scenario : Scenario) :
    (document.annotationsFor scenario).page? =
      ((scenario.annotations.get? "url").or (document.annotations.get? "url")).bind
        AnnotationValue.single? := by
  rw [AnnotationSet.page?, annotationsFor, AnnotationSet.get?_mergedWith]
  rfl

/-- Leaving out a page that is the one of the plan does not change what is opened. -/
theorem page_testOf_or (document : Document) (lookup : Lookup) (scenario : Scenario) :
    (document.testOf lookup scenario).page.or document.annotations.page? =
      (document.annotationsFor scenario).page?.or document.annotations.page? := by
  rw [testOf]
  split
  · next hsame => rw [hsame, Option.none_or, Option.or_self]
  · rfl

/-- A test opens the page that the merged annotations of its scenario name, unless the scenario has
a list for a page and the document a single text: then the test opens the page of the document,
while the merged annotations name none. A single text of the scenario is always what is opened. -/
theorem openedPage_follows_merged {document : Document} {lookup : Lookup} {plan : TestPlan}
    (hplan : document.plan lookup = .ok plan) {i : Nat} {merged : MergedScenario}
    (hmerged : document.mergedScenarios[i]? = some merged) :
    ∃ test, plan.tests[i]? = some test ∧
      (plan.openedPage test = merged.merged.page? ↔
        ¬ ∃ items page, merged.scenario.annotations.get? "url" = some (.list items) ∧
          document.annotations.get? "url" = some (.single page)) ∧
      (∀ items page, merged.scenario.annotations.get? "url" = some (.list items) →
        document.annotations.get? "url" = some (.single page) →
          plan.openedPage test = some page ∧ merged.merged.page? = none) ∧
      ∀ page, merged.scenario.annotations.get? "url" = some (.single page) →
        plan.openedPage test = some page := by
  obtain ⟨scenario, hscenario, rfl⟩ := exists_scenario_of_mergedScenarios hmerged
  refine ⟨_, getElem?_tests_of_plan hplan hscenario, ?_⟩
  have hopened : plan.openedPage (document.testOf lookup scenario) =
      (document.annotationsFor scenario).page?.or document.annotations.page? := by
    rw [TestPlan.openedPage, eq_of_plan hplan]
    exact document.page_testOf_or lookup scenario
  have hshared : document.annotations.page? =
      (document.annotations.get? "url").bind AnnotationValue.single? := rfl
  dsimp only
  rw [hopened, document.page?_annotationsFor scenario, hshared]
  -- What is merged is the value of the scenario, if it has one, whatever its form.
  cases scenario.annotations.get? "url" with
  | none => simp
  | some own =>
      cases own with
      | single page => simp [AnnotationValue.single?]
      | list items =>
          cases document.annotations.get? "url" with
          | none => simp [AnnotationValue.single?]
          | some shared => cases shared <;> simp [AnnotationValue.single?]

/-- A document with a page. Of its scenarios one has a page of its own and one a list. -/
def pagesDocument : Document :=
  ⟨"Shop", .ofEntries [("url", .single "/top")],
    [⟨"Pay", .ofEntries [("url", .single "/pay")], []⟩,
      ⟨"Look", .ofEntries [("url", .list ["/a", "/b"])], []⟩]⟩

def pagesPlan : TestPlan :=
  ⟨"Shop", some "/top", [⟨"Pay", some "/pay", []⟩, ⟨"Look", none, []⟩]⟩

theorem plan_pagesDocument : pagesDocument.plan Catalog.empty.lookup = .ok pagesPlan := rfl

theorem openedPage_follows_merged_pay :
    pagesDocument.plan Catalog.empty.lookup = .ok pagesPlan ∧
    ∃ merged test, pagesDocument.mergedScenarios[0]? = some merged ∧
      pagesPlan.tests[0]? = some test ∧ merged.merged.page? = some "/pay" ∧
      pagesPlan.openedPage test = merged.merged.page? := by
  obtain ⟨test, htest, -, -, hsingle⟩ :=
    openedPage_follows_merged plan_pagesDocument (i := 0) rfl
  exact ⟨plan_pagesDocument, _, test, rfl, htest, rfl, hsingle "/pay" rfl⟩

/-- The list stands in the merged annotations, which name no page, and still one is opened. -/
theorem openedPage_listed_differs :
    pagesDocument.plan Catalog.empty.lookup = .ok pagesPlan ∧
    ∃ merged test, pagesDocument.mergedScenarios[1]? = some merged ∧
      pagesPlan.tests[1]? = some test ∧
      merged.merged.get? "url" = some (.list ["/a", "/b"]) ∧ merged.merged.page? = none ∧
      pagesPlan.openedPage test = some "/top" :=
  ⟨plan_pagesDocument, _, ⟨"Look", none, []⟩, rfl, rfl, rfl, rfl, rfl⟩

end Document

end FeatureCompiler
