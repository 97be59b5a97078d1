import FeatureCompiler.Annotation.Set

/-!
Documents: what an annotated feature file says. Annotations above the feature header belong to the
document, those above a scenario header to that scenario.
-/

namespace FeatureCompiler

structure Step where
  text : String
  /-- The number of its line in the file, counted from one. -/
  line : Nat
deriving Repr, DecidableEq

structure Scenario where
  name : String
  annotations : AnnotationSet
  steps : List Step
deriving Repr, DecidableEq

structure Document where
  feature : String
  annotations : AnnotationSet
  scenarios : List Scenario
deriving Repr, DecidableEq

end FeatureCompiler
