import FeatureCompiler.Text.Pieces

/-!
The lines of a text. A line ends at a line feed, and one carriage return right before that line
feed belongs to the line end. What stands after the last line feed is a line of its own, with any
carriage return kept, unless it is empty.
-/

namespace FeatureCompiler.Text

def dropFinalReturn (line : List Char) : List Char :=
  if line.getLast? = some '\r' then line.dropLast else line

/-- The lines among pieces cut at line feeds: all but the last piece were ended by one. -/
def endedLines : List (List Char) → List (List Char)
  | [] => []
  | [last] => if last.isEmpty then [] else [last]
  | piece :: more => dropFinalReturn piece :: endedLines more

def lines (text : List Char) : List (List Char) :=
  endedLines (pieces '\n' text)

end FeatureCompiler.Text
