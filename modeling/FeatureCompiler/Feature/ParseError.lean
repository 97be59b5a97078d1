import FeatureCompiler.Annotation.Coercion

/-!
Why a text is no annotated feature file, and in which line that shows.
-/

namespace FeatureCompiler

inductive ParseError.Cause where
  | noValue (text : String)
  | invalidKey (text : String)
  | malformedValue (key : String) (error : Json.Error)
  | duplicateFeature
  | scenarioBeforeFeature
  | textBeforeFeature (text : String)
  | textBeforeScenario (text : String)
  | annotationsBeforeStep
  | missingFeature
  | annotationsAtEnd
deriving Repr, DecidableEq

structure ParseError where
  line : Nat
  cause : ParseError.Cause
deriving Repr, DecidableEq

def ParseError.Cause.message : ParseError.Cause → String
  | .noValue text => s!"annotation '{text}' has no '=value'"
  | .invalidKey text => s!"invalid annotation key in '{text}'"
  | .malformedValue _ error => AnnotationValue.coercionMessage error
  | .duplicateFeature => "duplicate 'Feature:' header"
  | .scenarioBeforeFeature => "'Scenario:' before the 'Feature:' header"
  | .textBeforeFeature text => s!"'{text}' appears before the 'Feature:' header"
  | .textBeforeScenario text => s!"step '{text}' appears before any 'Scenario:' header"
  | .annotationsBeforeStep => "annotations inside a scenario must precede a 'Scenario:' header"
  | .missingFeature => "missing 'Feature:' header"
  | .annotationsAtEnd => "annotations at end of file are not followed by a 'Scenario:' header"

def ParseError.message (error : ParseError) : String :=
  match error.cause with
  | .malformedValue key _ =>
      s!"line {error.line}: malformed value for annotation '{key}': {error.cause.message}"
  | _ => s!"line {error.line}: malformed feature file: {error.cause.message}"

end FeatureCompiler
