import FeatureCompiler.Plan.TestPlan
import FeatureCompiler.Proofs.Outcome

/-!
Which documents can be planned, and how the plan looks. A document asks for names, in the order in
which its tests would call them. If something is found under every one of them, the plan has a call
for each; otherwise the first name under which nothing is found is the one reported. In a catalog
that is the first name that no module declares.
-/

namespace FeatureCompiler

/-- What the name would call if it were known. -/
def UnknownName.callee : UnknownName → Callee
  | .hook kind key => .hook kind key
  | .step text _ => .step text

namespace Lookup

/-- What is found for something that a call names. -/
def find? (lookup : Lookup) : Callee → Option Callee
  | .hook kind key => lookup.hook? kind key
  | .step text => lookup.step? text

def Knows (lookup : Lookup) (callee : Callee) : Prop :=
  (lookup.find? callee).isSome = true

instance (lookup : Lookup) : DecidablePred lookup.Knows :=
  fun callee => inferInstanceAs (Decidable ((lookup.find? callee).isSome = true))

/-- The call with what is found for its callee. -/
def resolve (lookup : Lookup) (call : Call) : Call :=
  { call with callee := (lookup.find? call.callee).getD call.callee }

/-- The name itself, if nothing is known under it. -/
def missing? (lookup : Lookup) (name : UnknownName) : Option UnknownName :=
  if lookup.Knows name.callee then none else some name

variable {lookup : Lookup}

theorem missing?_eq_none_iff {name : UnknownName} :
    lookup.missing? name = none ↔ lookup.Knows name.callee := by
  simp [missing?]

theorem missing?_eq_some_iff {name other : UnknownName} :
    lookup.missing? name = some other ↔ ¬ lookup.Knows name.callee ∧ name = other := by
  simp [missing?]

/-- A request is answered by a call to what is found, or else by its name. -/
theorem answer_eq_valueUnless (lookup : Lookup) (name : UnknownName) (kind : CallKind)
    (argument : AnnotationSet) :
    (match lookup.find? name.callee with
      | some callee => .ok ⟨kind, callee, argument⟩
      | none => .error name) =
      valueUnless (lookup.missing? name) (lookup.resolve ⟨kind, name.callee, argument⟩) := by
  cases hfind : lookup.find? name.callee with
  | none => simp [missing?, Knows, hfind, valueUnless]
  | some callee => simp [missing?, Knows, hfind, valueUnless, resolve]

end Lookup

namespace Catalog

/-- Some module of the catalog declares what a call names. -/
def Declares (catalog : Catalog) (callee : Callee) : Prop :=
  ∃ module ∈ catalog.modules, module.Declares callee

instance (catalog : Catalog) : DecidablePred catalog.Declares :=
  fun callee => inferInstanceAs (Decidable (∃ module ∈ catalog.modules, module.Declares callee))

theorem find?_lookup (catalog : Catalog) (callee : Callee) :
    catalog.lookup.find? callee = if catalog.Declares callee then some callee else none := by
  cases callee with
  | hook kind key =>
      exact ite_congr (propext (KeySet.contains_iff_mem.trans (catalog.mem_hooks kind key)))
        (fun _ => rfl) (fun _ => rfl)
  | step text =>
      exact ite_congr (propext (KeySet.contains_iff_mem.trans (catalog.mem_steps text)))
        (fun _ => rfl) (fun _ => rfl)

theorem knows_lookup_iff {catalog : Catalog} {callee : Callee} :
    catalog.lookup.Knows callee ↔ catalog.Declares callee := by
  rw [Lookup.Knows, find?_lookup]
  split <;> simp [*]

/-- What a catalog finds is what was asked for. -/
theorem map_resolve_lookup (catalog : Catalog) (calls : List Call) :
    calls.map catalog.lookup.resolve = calls := by
  have hresolve : catalog.lookup.resolve = id := by
    funext call
    rw [Lookup.resolve, find?_lookup]
    split <;> rfl
  rw [hresolve, List.map_id]

end Catalog

/-- The hooks of a kind that a set of annotations asks for. Empty texts ask for none. -/
def AnnotationSet.requestedHooks (set : AnnotationSet) (kind : HookKind) : List String :=
  ((set.get? kind.key).toList.flatMap AnnotationValue.tokens).filter fun token => token ≠ ""

namespace Document

/-- The annotations that hold for a scenario of the document. -/
def annotationsFor (document : Document) (scenario : Scenario) : AnnotationSet :=
  document.annotations.mergedWith scenario.annotations

/-- What a scenario of the document asks for, in the order of its test. -/
def requestsOf (document : Document) (scenario : Scenario) : List UnknownName :=
  ((document.annotationsFor scenario).requestedHooks .before).map (.hook .before) ++
    scenario.steps.map (fun step => .step step.text step.line) ++
    ((document.annotationsFor scenario).requestedHooks .after).map (.hook .after)

/-- The calls for what a scenario asks for. Hooks before it are handed the annotations of the
document only. -/
def callsOf (document : Document) (scenario : Scenario) : List Call :=
  let shared := document.annotations.without ["before", "after", "url"]
  let own := (document.annotationsFor scenario).without ["before", "after", "url"]
  ((document.annotationsFor scenario).requestedHooks .before).map
      (fun key => ⟨.before, .hook .before key, shared⟩) ++
    scenario.steps.map (fun step => ⟨.step, .step step.text, own⟩) ++
    ((document.annotationsFor scenario).requestedHooks .after).map
      (fun key => ⟨.after, .hook .after key, own⟩)

/-- The test of a scenario whose requests are all known. -/
def testOf (document : Document) (lookup : Lookup) (scenario : Scenario) : PlannedTest :=
  let page := (document.annotationsFor scenario).page?
  { name := scenario.name
    page := if page = document.annotations.page? then none else page
    calls := (document.callsOf scenario).map lookup.resolve }

end Document

namespace MergedScenario

theorem hookKeys_eq (scenario : MergedScenario) (kind : HookKind) :
    scenario.hookKeys kind = scenario.merged.requestedHooks kind := by
  have hfilter (tokens : List String) :
      (tokens.filter fun token => !token.isEmpty) = tokens.filter fun token => token ≠ "" := by
    apply List.filter_congr
    intro token _
    by_cases htoken : token = "" <;> simp [htoken]
  unfold hookKeys AnnotationSet.requestedHooks
  cases scenario.merged.get? kind.key with
  | none => rfl
  | some value => simp [hfilter]

theorem hookCalls_eq (scenario : MergedScenario) (lookup : Lookup) (kind : HookKind) :
    scenario.hookCalls lookup kind =
      valueUnless
        (((scenario.merged.requestedHooks kind).map (.hook kind)).findSome? lookup.missing?)
        ((scenario.merged.requestedHooks kind).map fun key =>
          lookup.resolve
            ⟨kind.callKind, .hook kind key, (scenario.hookAnnotations kind).data⟩) := by
  rw [List.findSome?_map, ← hookKeys_eq]
  exact mapM_eq_valueUnless (fun key => lookup.answer_eq_valueUnless (.hook kind key) _ _) _

theorem stepCalls_eq (scenario : MergedScenario) (lookup : Lookup) :
    scenario.stepCalls lookup =
      valueUnless
        ((scenario.scenario.steps.map fun step =>
          UnknownName.step step.text step.line).findSome? lookup.missing?)
        (scenario.scenario.steps.map fun step =>
          lookup.resolve ⟨.step, .step step.text, scenario.merged.data⟩) := by
  rw [List.findSome?_map]
  exact mapM_eq_valueUnless
    (fun step : Step => lookup.answer_eq_valueUnless (.step step.text step.line) _ _) _

end MergedScenario

namespace Document

variable {document : Document} {lookup : Lookup}

theorem scenario_plan_eq (document : Document) (lookup : Lookup) (scenario : Scenario) :
    MergedScenario.plan ⟨scenario, document.annotations, document.annotationsFor scenario⟩ lookup
        document.annotations.page? =
      valueUnless ((document.requestsOf scenario).findSome? lookup.missing?)
        (document.testOf lookup scenario) := by
  simp only [MergedScenario.plan, MergedScenario.hookCalls_eq, MergedScenario.stepCalls_eq,
    requestsOf, List.findSome?_append, Option.or_assoc]
  refine valueUnless_bind (valueUnless_bind ?_)
  simp only [testOf, callsOf, List.map_append, List.map_map]
  cases (((document.annotationsFor scenario).requestedHooks .after).map
    (UnknownName.hook .after)).findSome? lookup.missing? <;> rfl

/-- Planning in closed form: the plan with a call for every request, unless a request is not
known. -/
theorem plan_eq_valueUnless (document : Document) (lookup : Lookup) :
    document.plan lookup =
      valueUnless ((document.scenarios.flatMap document.requestsOf).findSome? lookup.missing?)
        ⟨document.feature, document.annotations.page?,
          document.scenarios.map (document.testOf lookup)⟩ := by
  have htests : document.mergedScenarios.mapM
        (fun scenario => scenario.plan lookup document.annotations.page?) =
      valueUnless (document.scenarios.findSome? fun scenario =>
          (document.requestsOf scenario).findSome? lookup.missing?)
        (document.scenarios.map (document.testOf lookup)) := by
    rw [mergedScenarios, List.mapM_map]
    exact mapM_eq_valueUnless (document.scenario_plan_eq lookup) document.scenarios
  have hflat (scenarios : List Scenario) :
      (scenarios.flatMap document.requestsOf).findSome? lookup.missing? =
        scenarios.findSome? fun scenario =>
          (document.requestsOf scenario).findSome? lookup.missing? := by
    induction scenarios with
    | nil => rfl
    | cons scenario rest ih =>
        rw [List.flatMap_cons, List.findSome?_append, ih, List.findSome?_cons]
        cases (document.requestsOf scenario).findSome? lookup.missing? <;> rfl
  rw [hflat, plan, htests]
  cases document.scenarios.findSome? _ <;> rfl

theorem eq_of_plan {plan : TestPlan} (h : document.plan lookup = .ok plan) :
    plan =
      ⟨document.feature, document.annotations.page?,
        document.scenarios.map (document.testOf lookup)⟩ := by
  rw [plan_eq_valueUnless, valueUnless_eq_ok_iff] at h
  exact h.2

theorem plan_eq_ok_iff {plan : TestPlan} :
    document.plan lookup = .ok plan ↔
      (∀ scenario ∈ document.scenarios, ∀ name ∈ document.requestsOf scenario,
        lookup.Knows name.callee) ∧
      plan = ⟨document.feature, document.annotations.page?,
        document.scenarios.map (document.testOf lookup)⟩ := by
  simp only [plan_eq_valueUnless, valueUnless_eq_ok_iff, List.findSome?_eq_none_iff,
    Lookup.missing?_eq_none_iff, List.forall_mem_flatMap]

theorem getElem?_tests_of_plan {plan : TestPlan} (hplan : document.plan lookup = .ok plan)
    {i : Nat} {scenario : Scenario} (hscenario : document.scenarios[i]? = some scenario) :
    plan.tests[i]? = some (document.testOf lookup scenario) := by
  rw [eq_of_plan hplan, List.getElem?_map, hscenario, Option.map_some]

theorem forall_mem_requestsOf {scenario : Scenario} {p : UnknownName → Prop} :
    (∀ name ∈ document.requestsOf scenario, p name) ↔
      (∀ key ∈ (document.annotationsFor scenario).requestedHooks .before, p (.hook .before key)) ∧
      (∀ step ∈ scenario.steps, p (.step step.text step.line)) ∧
      ∀ key ∈ (document.annotationsFor scenario).requestedHooks .after, p (.hook .after key) := by
  simp only [requestsOf, List.forall_mem_append, List.forall_mem_map, and_assoc]

/-- A document can be planned against a catalog exactly if every request of every scenario is
declared. The tests of the plan are then those of the scenarios in their order, with exactly the
calls asked for, each of the kind of its part of the test. If not, what is reported is the first
request, scenario by scenario and in each in the order of its test, that no module declares. -/
theorem plan_resolves_requests (document : Document) (catalog : Catalog) :
    ((∃ plan, document.plan catalog.lookup = .ok plan) ↔
      ∀ scenario ∈ document.scenarios,
        (∀ key ∈ (document.annotationsFor scenario).requestedHooks .before,
          catalog.Declares (.hook .before key)) ∧
        (∀ step ∈ scenario.steps, catalog.Declares (.step step.text)) ∧
        ∀ key ∈ (document.annotationsFor scenario).requestedHooks .after,
          catalog.Declares (.hook .after key)) ∧
    (∀ plan, document.plan catalog.lookup = .ok plan →
      plan.tests.map (fun test => (test.name, test.calls)) =
        document.scenarios.map fun scenario => (scenario.name, document.callsOf scenario)) ∧
    ∀ name, document.plan catalog.lookup = .error name ↔
      ∃ earlier later, document.scenarios.flatMap document.requestsOf = earlier ++ name :: later ∧
        (∀ other ∈ earlier, catalog.Declares other.callee) ∧ ¬ catalog.Declares name.callee := by
  refine ⟨?_, ?_, ?_⟩
  · simp only [plan_eq_ok_iff, exists_and_left, exists_eq, and_true, Catalog.knows_lookup_iff,
      forall_mem_requestsOf, UnknownName.callee]
  · intro plan hplan
    rw [eq_of_plan hplan, List.map_map]
    apply List.map_congr_left
    intro scenario _
    exact congrArg (scenario.name, ·) (catalog.map_resolve_lookup _)
  · intro name
    rw [plan_eq_valueUnless, valueUnless_eq_error_iff, List.findSome?_eq_some_iff]
    simp only [Lookup.missing?_eq_some_iff, Lookup.missing?_eq_none_iff, Catalog.knows_lookup_iff]
    constructor
    · rintro ⟨earlier, other, later, hrequests, ⟨hunknown, rfl⟩, hearlier⟩
      exact ⟨earlier, later, hrequests, hearlier, hunknown⟩
    · rintro ⟨earlier, later, hrequests, hearlier, hunknown⟩
      exact ⟨earlier, name, later, hrequests, ⟨hunknown, rfl⟩, hearlier⟩

end Document

end FeatureCompiler
