import FeatureCompiler.Feature.Document
import FeatureCompiler.Feature.Line
import FeatureCompiler.Text.Lines

/-!
Documents read line by line. Annotations are collected until the header that they belong to; a file
has one feature header, before all scenarios, and no step outside a scenario.
-/

namespace FeatureCompiler

/-- The document as far as it has been read, with the annotations that wait for a header. Scenarios
stand in reverse. -/
inductive Draft where
  | untitled (pending : AnnotationSet)
  | titled (feature : String) (annotations : AnnotationSet) (scenarios : List Scenario)
      (pending : AnnotationSet)
deriving Repr, DecidableEq

namespace Draft

def start : Draft := .untitled ∅

def addAnnotation (key : String) (value : AnnotationValue) : Draft → Draft
  | .untitled pending => .untitled (pending.insert key value)
  | .titled feature annotations scenarios pending =>
      .titled feature annotations scenarios (pending.insert key value)

def addFeature (name : String) : Draft → Except ParseError.Cause Draft
  | .untitled pending => .ok (.titled name pending [] ∅)
  | .titled .. => .error .duplicateFeature

def addScenario (name : String) : Draft → Except ParseError.Cause Draft
  | .untitled _ => .error .scenarioBeforeFeature
  | .titled feature annotations scenarios pending =>
      .ok (.titled feature annotations (⟨name, pending, []⟩ :: scenarios) ∅)

def addStep (step : Step) : Draft → Except ParseError.Cause Draft
  | .untitled _ => .error (.textBeforeFeature step.text)
  | .titled _ _ [] _ => .error (.textBeforeScenario step.text)
  | .titled feature annotations (scenario :: earlier) pending =>
      if pending.entries.isEmpty then
        let scenario := { scenario with steps := scenario.steps ++ [step] }
        .ok (.titled feature annotations (scenario :: earlier) pending)
      else .error .annotationsBeforeStep

/-- The draft after a line with the given number. -/
def addLine (draft : Draft) (number : Nat) : Line → Except ParseError.Cause Draft
  | .blank => .ok draft
  | .comment => .ok draft
  | .tag key raw =>
      match AnnotationValue.coerce raw with
      | .ok value => .ok (draft.addAnnotation key value)
      | .error error => .error (.malformedValue key error)
  | .feature name => draft.addFeature name
  | .scenario name => draft.addScenario name
  | .text text => draft.addStep ⟨text, number⟩

/-- The draft after all lines, the first of which has the given number. -/
def addLines (draft : Draft) (number : Nat) : List (List Char) → Except ParseError Draft
  | [] => .ok draft
  | raw :: rest => do
      let line ← (Line.classify raw).mapError (ParseError.mk number)
      let draft ← (draft.addLine number line).mapError (ParseError.mk number)
      draft.addLines (number + 1) rest

def finish : Draft → Except ParseError.Cause Document
  | .untitled _ => .error .missingFeature
  | .titled feature annotations scenarios pending =>
      if pending.entries.isEmpty then .ok ⟨feature, annotations, scenarios.reverse⟩
      else .error .annotationsAtEnd

end Draft

namespace Document

/-- The text of a file without a byte-order mark in front. -/
def withoutMark : List Char → List Char
  | '\ufeff' :: rest => rest
  | text => text

/-- The document that some lines make. What is missing at the end is put down to the last line. -/
def ofLines (lines : List (List Char)) : Except ParseError Document := do
  let draft ← Draft.start.addLines 1 lines
  draft.finish.mapError (ParseError.mk (max 1 lines.length))

def parse (text : String) : Except ParseError Document :=
  ofLines (Text.lines (withoutMark text.toList))

end Document

end FeatureCompiler
