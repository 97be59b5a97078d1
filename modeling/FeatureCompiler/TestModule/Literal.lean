/-!
Texts as literals of generated JavaScript: between double quotes, where line ends and tabs are
escaped, and between backticks, where they stand as they are and only what would end the literal or
start a substitution is escaped.
-/

namespace FeatureCompiler.TestModule

def escapeChar : Char → List Char
  | '\\' => ['\\', '\\']
  | '"' => ['\\', '"']
  | '\n' => ['\\', 'n']
  | '\r' => ['\\', 'r']
  | '\t' => ['\\', 't']
  | c => [c]

/-- A text as it stands between double quotes. -/
def escapeString (text : List Char) : List Char :=
  text.flatMap escapeChar

/-- A text as it stands between backticks. -/
def escapeTemplate : List Char → List Char
  | [] => []
  | '\\' :: rest => '\\' :: '\\' :: escapeTemplate rest
  | '`' :: rest => '\\' :: '`' :: escapeTemplate rest
  | '$' :: '{' :: rest => '\\' :: '$' :: '{' :: escapeTemplate rest
  | c :: rest => c :: escapeTemplate rest

def stringLiteral (text : String) : String :=
  "\"" ++ String.ofList (escapeString text.toList) ++ "\""

def templateLiteral (text : String) : String :=
  "`" ++ String.ofList (escapeTemplate text.toList) ++ "`"

end FeatureCompiler.TestModule
