/-!
Values of annotations: one text, or a list of texts.
-/

namespace FeatureCompiler

inductive AnnotationValue where
  | single (text : String)
  | list (items : List String)
deriving Repr, DecidableEq

namespace AnnotationValue

def single? : AnnotationValue → Option String
  | .single text => some text
  | .list _ => none

/-- The texts of a value, whatever its form. -/
def tokens : AnnotationValue → List String
  | .single text => [text]
  | .list items => items

end AnnotationValue

end FeatureCompiler
