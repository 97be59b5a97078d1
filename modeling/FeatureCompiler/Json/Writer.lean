import FeatureCompiler.Text.Hex
import FeatureCompiler.Text.Pieces

/-!
JSON texts without blanks. Only quotes, backslashes and the control characters below the space are
escaped, the latter by their short form if they have one.
-/

namespace FeatureCompiler.Json

def writeChar (c : Char) : List Char :=
  match c with
  | '"' => ['\\', '"']
  | '\\' => ['\\', '\\']
  | '\x08' => ['\\', 'b']
  | '\x0c' => ['\\', 'f']
  | '\n' => ['\\', 'n']
  | '\r' => ['\\', 'r']
  | '\t' => ['\\', 't']
  | c =>
      if c.toNat < 0x10 then ['\\', 'u', '0', '0', '0'] ++ Text.lowerHex c.toNat
      else if c.toNat < 0x20 then ['\\', 'u', '0', '0'] ++ Text.lowerHex c.toNat
      else [c]

def writeString (text : List Char) : List Char :=
  '"' :: text.flatMap writeChar ++ ['"']

def writeStrings (items : List String) : List Char :=
  '[' :: Text.joined [','] (items.map fun item => writeString item.toList) ++ [']']

/-- An object with values that are written already. -/
def writeObject (members : List (String × List Char)) : List Char :=
  '{' :: Text.joined [','] (members.map fun (key, value) => writeString key.toList ++ ':' :: value)
    ++ ['}']

end FeatureCompiler.Json
