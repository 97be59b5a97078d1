import FeatureCompiler.Catalog.Basic
import FeatureCompiler.Plan.MergedScenario

/-!
Test plans: for every scenario of a document the calls that its test makes, in order. First come the
hooks before it, then its steps, then the hooks after it, and all of them have to be known to the
catalog.
-/

namespace FeatureCompiler

/-- The part of a test that a call belongs to. -/
inductive CallKind where
  | before
  | step
  | after
deriving Repr, DecidableEq

def HookKind.callKind : HookKind → CallKind
  | .before => .before
  | .after => .after

structure Call where
  kind : CallKind
  callee : Callee
  argument : AnnotationSet
deriving Repr, DecidableEq

structure PlannedTest where
  name : String
  /-- The page to open, if it is not the one of the whole plan. -/
  page : Option String
  calls : List Call
deriving Repr, DecidableEq

structure TestPlan where
  name : String
  page : Option String
  tests : List PlannedTest
deriving Repr, DecidableEq

/-- A name that nothing is known under. -/
inductive UnknownName where
  | hook (kind : HookKind) (key : String)
  | step (text : String) (line : Nat)
deriving Repr, DecidableEq

def UnknownName.message : UnknownName → String
  | .hook kind key => s!"unknown {kind.key} hook '{key}'"
  | .step text line => s!"unknown step '{text}' (line {line})"

namespace MergedScenario

/-- The calls of the hooks of a kind. -/
def hookCalls (scenario : MergedScenario) (lookup : Lookup) (kind : HookKind) :
    Except UnknownName (List Call) :=
  (scenario.hookKeys kind).mapM fun key =>
    match lookup.hook? kind key with
    | some callee => .ok ⟨kind.callKind, callee, (scenario.hookAnnotations kind).data⟩
    | none => .error (.hook kind key)

def stepCalls (scenario : MergedScenario) (lookup : Lookup) : Except UnknownName (List Call) :=
  scenario.scenario.steps.mapM fun step =>
    match lookup.step? step.text with
    | some callee => .ok ⟨.step, callee, scenario.merged.data⟩
    | none => .error (.step step.text step.line)

/-- The test of a scenario in a plan that opens a page of its own. -/
def plan (scenario : MergedScenario) (lookup : Lookup) (planPage : Option String) :
    Except UnknownName PlannedTest := do
  let before ← scenario.hookCalls lookup .before
  let steps ← scenario.stepCalls lookup
  let after ← scenario.hookCalls lookup .after
  let page := scenario.merged.page?
  return {
    name := scenario.scenario.name
    page := if page = planPage then none else page
    calls := before ++ steps ++ after }

end MergedScenario

def Document.plan (document : Document) (lookup : Lookup) : Except UnknownName TestPlan := do
  let page := document.annotations.page?
  let tests ← document.mergedScenarios.mapM fun scenario => scenario.plan lookup page
  return ⟨document.feature, page, tests⟩

end FeatureCompiler
