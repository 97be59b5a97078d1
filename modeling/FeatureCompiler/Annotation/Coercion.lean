import FeatureCompiler.Annotation.Value
import FeatureCompiler.Json.StringArray
import FeatureCompiler.Text.Blank
import FeatureCompiler.Text.Pieces

/-!
How the text of an annotation becomes its value. Blanks around the text do not count. Brackets make
it a JSON array of strings, double quotes a text that is taken as it stands, and commas a list of
trimmed pieces; anything else is the text itself.
-/

namespace FeatureCompiler.AnnotationValue

/-- What is left of a text between two characters that enclose it. -/
def enclosed? (first last : Char) : List Char → Option (List Char)
  | [] => none
  | c :: rest =>
      if c = first ∧ rest.getLast? = some last then some rest.dropLast else none

/-- The value of a text without blanks around it. -/
def ofTrimmed (text : List Char) : Except Json.Error AnnotationValue :=
  if (enclosed? '[' ']' text).isSome then (Json.parseStrings text).map .list
  else
    match enclosed? '"' '"' text with
    | some inner => .ok (.single (String.ofList inner))
    | none =>
        if text.contains ',' then
          .ok (.list ((Text.pieces ',' text).map fun piece => String.ofList (Text.trim piece)))
        else .ok (.single (String.ofList text))

/-- The value that a raw text stands for. -/
def coerce (raw : List Char) : Except Json.Error AnnotationValue :=
  ofTrimmed (Text.trim raw)

/-- How a text that is no value is reported. -/
def coercionMessage (error : Json.Error) : String :=
  "expected a JSON array of strings: " ++ error.message

end FeatureCompiler.AnnotationValue
