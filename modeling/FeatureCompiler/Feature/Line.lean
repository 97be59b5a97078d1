import FeatureCompiler.Feature.ParseError

/-!
The lines of a feature file, each told from its own text alone. Blanks around a line do not count,
except those after the text of a step.
-/

namespace FeatureCompiler

inductive Line where
  | blank
  | comment
  | tag (key : String) (raw : List Char)
  | feature (name : String)
  | scenario (name : String)
  | text (text : String)
deriving Repr, DecidableEq

namespace Line

/-- What is left of a text after a beginning that it has. -/
def after? : List Char → List Char → Option (List Char)
  | [], rest => some rest
  | _ :: _, [] => none
  | expected :: more, c :: rest => if c = expected then after? more rest else none

/-- The annotation that a line `@directive` makes. -/
def ofDirective (directive : List Char) : Except ParseError.Cause Line :=
  let text := String.ofList ('@' :: directive)
  match directive.dropWhile (· ≠ '=') with
  | [] => .error (.noValue text)
  | _ :: raw =>
      let key := Text.trim (directive.takeWhile (· ≠ '='))
      if key = [] ∨ key.any Text.isBlank then .error (.invalidKey text)
      else .ok (.tag (String.ofList key) raw)

def classify (raw : List Char) : Except ParseError.Cause Line :=
  match Text.trim raw with
  | [] => .ok .blank
  | '#' :: _ => .ok .comment
  | '@' :: directive => ofDirective directive
  | trimmed =>
      match after? "Feature:".toList trimmed, after? "Scenario:".toList trimmed with
      | some name, _ => .ok (.feature (String.ofList (Text.trim name)))
      | none, some name => .ok (.scenario (String.ofList (Text.trim name)))
      | none, none => .ok (.text (String.ofList (Text.trimStart raw)))

end Line

end FeatureCompiler
