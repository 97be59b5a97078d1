import FeatureCompiler.Catalog.StepModule
import FeatureCompiler.Feature.Document

/-!
Scenarios with the annotations that hold for them: those of the document, with their own put over
them. Hooks that run before a scenario see the annotations of the document only.
-/

namespace FeatureCompiler

/-- The annotation that names the page a test opens. -/
def pageKey : String := "url"

/-- Annotations that direct the compiler and are not handed to steps. -/
def reservedKeys : List String := ["before", "after", pageKey]

/-- What of a set is handed to a step or hook. -/
def AnnotationSet.data (set : AnnotationSet) : AnnotationSet :=
  set.without reservedKeys

/-- The page that a set names. A list names none. -/
def AnnotationSet.page? (set : AnnotationSet) : Option String :=
  (set.get? pageKey).bind AnnotationValue.single?

structure MergedScenario where
  scenario : Scenario
  document : AnnotationSet
  merged : AnnotationSet
deriving Repr, DecidableEq

namespace MergedScenario

/-- The annotations that hooks of a kind see. -/
def hookAnnotations (scenario : MergedScenario) : HookKind → AnnotationSet
  | .before => scenario.document
  | .after => scenario.merged

/-- The hooks of a kind that a scenario asks for. -/
def hookKeys (scenario : MergedScenario) (kind : HookKind) : List String :=
  match scenario.merged.get? kind.key with
  | some value => value.tokens.filter fun token => !token.isEmpty
  | none => []

end MergedScenario

def Document.mergedScenarios (document : Document) : List MergedScenario :=
  document.scenarios.map fun scenario =>
    ⟨scenario, document.annotations, document.annotations.mergedWith scenario.annotations⟩

end FeatureCompiler
