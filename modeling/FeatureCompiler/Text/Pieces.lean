/-!
A text cut at every occurrence of a separator, and put together again. The text can be one of
characters or of bytes.
-/

namespace FeatureCompiler.Text

variable {α : Type}

/-- The pieces of a text between the occurrences of a separator. There is always one more piece
than there are separators, so the empty text is one empty piece. -/
def pieces [DecidableEq α] (separator : α) : List α → List (List α)
  | [] => [[]]
  | c :: rest =>
      if c = separator then [] :: pieces separator rest
      else
        match pieces separator rest with
        | [] => [[c]]
        | piece :: more => (c :: piece) :: more

/-- The pieces with a separator between each two of them. -/
def joined (separator : List α) : List (List α) → List α
  | [] => []
  | [piece] => piece
  | piece :: more => piece ++ separator ++ joined separator more

end FeatureCompiler.Text
