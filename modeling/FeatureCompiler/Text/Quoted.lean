import FeatureCompiler.Text.DefaultIgnorable
import FeatureCompiler.Text.GraphemeExtend
import FeatureCompiler.Text.Hex
import FeatureCompiler.Text.Unprintable

/-!
Texts in double quotes that show what they hold: quotes and backslashes are escaped, and so is every
character that would be invisible or attach itself to its neighbour.
-/

namespace FeatureCompiler.Text

/-- The halfwidth voiced sound marks. They extend the character before them, but as letters with a
width of their own they are also read alone. -/
def isHalfwidthSoundMark (c : Char) : Bool :=
  c = '\uff9e' || c = '\uff9f'

/-- Whether a character cannot be seen or cannot be told from its neighbour. -/
def isHidden (c : Char) : Bool :=
  isUnprintable c || isDefaultIgnorable c || (isGraphemeExtend c && !isHalfwidthSoundMark c)

def quotedChar (c : Char) : List Char :=
  match c with
  | '"' => ['\\', '"']
  | '\\' => ['\\', '\\']
  | '\x00' => ['\\', '0']
  | '\t' => ['\\', 't']
  | '\r' => ['\\', 'r']
  | '\n' => ['\\', 'n']
  | c =>
      if isHidden c then ['\\', 'u', '{'] ++ lowerHex c.toNat ++ ['}'] else [c]

def quoted (text : List Char) : List Char :=
  '"' :: text.flatMap quotedChar ++ ['"']

end FeatureCompiler.Text
