import FeatureCompiler.Script.Token

/-!
Where the default export of a script stands. It is written `export default` or `module.exports =`,
followed by an object literal or by a name that is bound to one with `const`, `let` or `var`.
-/

namespace FeatureCompiler.Script

/-- Whether a token is spelled like this. Literals are spelled like nothing. -/
def Token.spells (text : String) : Token → Bool
  | .word name => name = text
  | .mark c => text.toList = [c]
  | .literal => false

/-- The lexemes after a run of tokens spelled like the given texts, if they start with one. -/
def afterRun? : List String → List Lexeme → Option (List Lexeme)
  | [], lexemes => some lexemes
  | _ :: _, [] => none
  | text :: texts, lexeme :: lexemes =>
      if lexeme.token.spells text then afterRun? texts lexemes else none

/-- The lexemes after the first run of tokens spelled like the given texts. -/
def afterFirst? (texts : List String) : List Lexeme → Option (List Lexeme)
  | [] => afterRun? texts []
  | lexeme :: lexemes =>
      afterRun? texts (lexeme :: lexemes) <|> afterFirst? texts lexemes

/-- The lexemes from an opening brace on, if one comes first. -/
def atBrace? : List Lexeme → Option (List Lexeme)
  | ⟨.mark '{', source⟩ :: rest => some (⟨.mark '{', source⟩ :: rest)
  | _ => none

/-- The lexemes from the opening brace of the exported object on. Only the first export counts,
and of the bindings of an exported name the first of each keyword. -/
def exportedObject? (lexemes : List Lexeme) : Option (List Lexeme) := do
  let exported ← afterFirst? ["export", "default"] lexemes <|>
    afterFirst? ["module", ".", "exports", "="] lexemes
  match exported with
  | ⟨.word name, _⟩ :: _ =>
      ["const", "let", "var"].findSome? fun keyword => do
        atBrace? (← afterFirst? [keyword, name, "="] lexemes)
  | _ => atBrace? exported

end FeatureCompiler.Script
