import FeatureCompiler.Proofs.Annotation.Insertion
import FeatureCompiler.Proofs.Plan.Resolution

/-!
What a scenario can change about the hooks that run before it. With a `before` annotation of its own
it replaces the list of these hooks. Nothing else that it says reaches them: they are handed what
the document says, also under a key that the scenario gives another value.
-/

namespace FeatureCompiler

/-- The calls of a test that are of a kind, in their order. -/
def PlannedTest.callsOfKind (test : PlannedTest) (kind : CallKind) : List Call :=
  test.calls.filter fun call => call.kind = kind

/-- The calls before a scenario in a document with these annotations, where something is found for
them. Of the scenario only its own `before` annotation is given. -/
def AnnotationSet.callsBefore (shared : AnnotationSet) (lookup : Lookup)
    (own? : Option AnnotationValue) : List (Option Call) :=
  let named := (own?.or (shared.get? "before")).toList.flatMap AnnotationValue.tokens
  (named.filter fun key => key ≠ "").map fun key =>
    (lookup.hook? .before key).map fun callee =>
      ⟨.before, callee, shared.without ["before", "after", "url"]⟩

namespace Document

variable {document other : Document} {lookup : Lookup}

/-- Steps and hooks of the other kind drop out of the calls before a scenario. -/
theorem callsOfKind_before_testOf (document : Document) (lookup : Lookup) (scenario : Scenario) :
    (document.testOf lookup scenario).callsOfKind .before =
      ((document.annotationsFor scenario).requestedHooks .before).map fun key =>
        lookup.resolve ⟨.before, .hook .before key,
          document.annotations.without ["before", "after", "url"]⟩ := by
  have hkind {α : Type} (items : List α) (call : α → Call) (kind : CallKind)
      (hcall : ∀ item, (call item).kind = kind) :
      (items.map (lookup.resolve ∘ call)).filter (fun call => call.kind = .before) =
        if kind = .before then items.map (lookup.resolve ∘ call) else [] := by
    split
    · next hbefore =>
        apply List.filter_eq_self.mpr
        simp [Lookup.resolve, hcall, hbefore]
    · next hother =>
        apply List.filter_eq_nil_iff.mpr
        simp [Lookup.resolve, hcall, hother]
  simp only [PlannedTest.callsOfKind, testOf, callsOf, List.map_append, List.map_map,
    List.filter_append]
  rw [hkind _ _ .before fun _ => rfl, hkind _ _ .step fun _ => rfl, hkind _ _ .after fun _ => rfl]
  simp [Function.comp_def]

/-- Once a document is planned, its hooks before a scenario are found. -/
theorem callsOfKind_before_eq_callsBefore {plan : TestPlan}
    (hplan : document.plan lookup = .ok plan) {scenario : Scenario}
    (hscenario : scenario ∈ document.scenarios) :
    ((document.testOf lookup scenario).callsOfKind .before).map some =
      document.annotations.callsBefore lookup (scenario.annotations.get? "before") := by
  have hknown := (forall_mem_requestsOf.mp ((plan_eq_ok_iff.mp hplan).1 scenario hscenario)).1
  have hkeys : (document.annotationsFor scenario).requestedHooks .before =
      (((scenario.annotations.get? "before").or
        (document.annotations.get? "before")).toList.flatMap AnnotationValue.tokens).filter
          fun key => key ≠ "" := by
    rw [AnnotationSet.requestedHooks, annotationsFor, AnnotationSet.get?_mergedWith]
    rfl
  rw [callsOfKind_before_testOf, List.map_map, AnnotationSet.callsBefore, ← hkeys]
  apply List.map_congr_left
  intro key hkey
  obtain ⟨callee, hcallee⟩ := Option.isSome_iff_exists.mp (hknown key hkey)
  have hhook : lookup.hook? .before key = some callee := hcallee
  simp [Lookup.resolve, Lookup.find?, hhook]

/-- Two scenarios with the same `before` annotation, or none, in documents with the same annotations
have the same calls before them, whatever else they say and however names are looked up. The calls
are to what is found for the hooks of that annotation, or else those of the document, and hand each
of them what the document says. -/
theorem calls_before_isolated {plan otherPlan : TestPlan}
    (hplan : document.plan lookup = .ok plan) (hotherPlan : other.plan lookup = .ok otherPlan)
    (hannotations : document.annotations = other.annotations)
    {i j : Nat} {scenario otherScenario : Scenario}
    (hscenario : document.scenarios[i]? = some scenario)
    (hotherScenario : other.scenarios[j]? = some otherScenario)
    (hbefore : scenario.annotations.get? "before" = otherScenario.annotations.get? "before") :
    ∃ test otherTest, plan.tests[i]? = some test ∧ otherPlan.tests[j]? = some otherTest ∧
      test.callsOfKind .before = otherTest.callsOfKind .before ∧
      (test.callsOfKind .before).map some =
        document.annotations.callsBefore lookup (scenario.annotations.get? "before") := by
  have hcalls := callsOfKind_before_eq_callsBefore hplan (List.mem_of_getElem? hscenario)
  have hotherCalls :=
    callsOfKind_before_eq_callsBefore hotherPlan (List.mem_of_getElem? hotherScenario)
  refine ⟨_, _, getElem?_tests_of_plan hplan hscenario,
    getElem?_tests_of_plan hotherPlan hotherScenario, ?_, hcalls⟩
  apply (List.map_inj_right fun _ _ => Option.some.inj).mp
  rw [hcalls, hotherCalls, hannotations, hbefore]

/-- The annotations of two documents, whose scenarios give the user another value. -/
def guestAnnotations : AnnotationSet :=
  .ofEntries [("user", .single "guest"), ("before", .single "open")]

def payScenario : Scenario :=
  ⟨"Pay", .ofEntries [("user", .single "admin"), ("before", .list ["login", ""])], [⟨"I pay", 7⟩]⟩

def returnScenario : Scenario :=
  ⟨"Return",
    .ofEntries [("before", .list ["login", ""]), ("after", .single "close"), ("user", .list [])],
    []⟩

def guestCatalog : Catalog :=
  Catalog.empty.add ⟨⟨"a.js"⟩, ⟨"a.js"⟩, ["open", "login"], ["close"], ["I pay"]⟩

theorem calls_before_isolated_guests :
    ∃ plan otherPlan test otherTest,
      Document.plan ⟨"Shop", guestAnnotations, [⟨"Look", ∅, []⟩, payScenario]⟩
        guestCatalog.lookup = .ok plan ∧
      Document.plan ⟨"Store", guestAnnotations, [returnScenario]⟩ guestCatalog.lookup =
        .ok otherPlan ∧
      payScenario.annotations.get? "before" = returnScenario.annotations.get? "before" ∧
      plan.tests[1]? = some test ∧ otherPlan.tests[0]? = some otherTest ∧
      test.callsOfKind .before = otherTest.callsOfKind .before ∧
      (test.callsOfKind .before).map some =
        [some ⟨.before, .hook .before "login", .ofEntries [("user", .single "guest")]⟩] := by
  have hplan : Document.plan ⟨"Shop", guestAnnotations, [⟨"Look", ∅, []⟩, payScenario]⟩
      guestCatalog.lookup = .ok ⟨"Shop", none, [⟨"Look", none, _⟩, ⟨"Pay", none, _⟩]⟩ := rfl
  have hotherPlan : Document.plan ⟨"Store", guestAnnotations, [returnScenario]⟩
      guestCatalog.lookup = .ok ⟨"Store", none, [⟨"Return", none, _⟩]⟩ := rfl
  have hbefore : payScenario.annotations.get? "before" =
      returnScenario.annotations.get? "before" := by decide
  obtain ⟨test, otherTest, htest, hotherTest, hsame, hcalls⟩ :=
    calls_before_isolated hplan hotherPlan rfl (i := 1) (j := 0) rfl rfl hbefore
  exact ⟨_, _, test, otherTest, hplan, hotherPlan, hbefore, htest, hotherTest, hsame, hcalls⟩

end Document

end FeatureCompiler
