import FeatureCompiler.Feature.Document
import FeatureCompiler.Text.Quoted

/-!
The outline of a document: one line for each name, annotation and step, indented by what it belongs
to. Only the values of annotations are quoted.
-/

namespace FeatureCompiler

def AnnotationValue.quoted : AnnotationValue → List Char
  | .single text => Text.quoted text.toList
  | .list items =>
      '[' :: Text.joined [',', ' '] (items.map fun item => Text.quoted item.toList) ++ [']']

/-- A line of an outline. -/
def outlineLine (depth : Nat) (text : String) : String :=
  String.ofList (List.replicate (2 * depth) ' ') ++ text ++ "\n"

def AnnotationSet.outline (set : AnnotationSet) (depth : Nat) : String :=
  if set.entries.isEmpty then outlineLine depth "Annotations: (none)"
  else
    outlineLine depth "Annotations:" ++ String.join (set.entries.map fun entry =>
      outlineLine (depth + 1) ("@" ++ entry.1 ++ " = " ++ String.ofList entry.2.quoted))

def Step.outline (step : Step) (depth : Nat) : String :=
  outlineLine depth s!"- {step.text} (line {step.line})"

def Scenario.outline (scenario : Scenario) (depth : Nat) : String :=
  outlineLine depth ("Scenario: " ++ scenario.name) ++
    scenario.annotations.outline (depth + 1) ++
    if scenario.steps.isEmpty then outlineLine (depth + 1) "Steps: (none)"
    else
      outlineLine (depth + 1) "Steps:" ++
        String.join (scenario.steps.map fun step => step.outline (depth + 2))

def Document.outline (document : Document) : String :=
  outlineLine 0 ("Feature: " ++ document.feature) ++
    document.annotations.outline 1 ++
    String.join (document.scenarios.map fun scenario => scenario.outline 1)

end FeatureCompiler
