import FeatureCompiler.Json.Value
import FeatureCompiler.Text.Bytes

/-!
Why a text is not the JSON that was asked for, and where. While a text is read, a fault holds the
text that was left and how much of it had been looked at; its line and column, which counts bytes,
are worked out once from there.
-/

namespace FeatureCompiler.Json

/-- What stands where a string was expected. -/
inductive Found where
  | null
  | bool (b : Bool)
  | number (n : Number)
  | sequence
  | map
deriving Repr, DecidableEq

inductive Reason where
  | endInValue
  | endInList
  | endInObject
  | endInString
  | expectedValue
  | expectedListEnd
  | expectedObjectEnd
  | expectedColon
  | keyNotString
  | trailingComma
  | trailingCharacters
  | expectedWord
  | invalidNumber
  | numberOutOfRange
  | invalidEscape
  | unfinishedPair
  | loneSurrogate
  | controlCharacter
  | tooDeep
  | notAString (found : Found)
deriving Repr, DecidableEq

/-- A reason with the text that was left, of which `seen` bytes had been looked at. -/
structure Fault where
  reason : Reason
  rest : List Char
  seen : Nat
deriving Repr, DecidableEq

/-- A fault at the next byte, which was looked at and not taken. At the end there is none. -/
def Fault.atNext (reason : Reason) (rest : List Char) : Fault :=
  ⟨reason, rest, if rest.isEmpty then 0 else 1⟩

/-- A fault for which the input ends too early. -/
def Fault.atEnd (reason : Reason) : Fault :=
  ⟨reason, [], 0⟩

/-- A place in a text: lines count from one, columns are the bytes since the line began. -/
structure Position where
  line : Nat
  column : Nat
deriving Repr, DecidableEq

/-- The place so many bytes after a given one. -/
def Position.advance (position : Position) : Nat → List Char → Position
  | _, [] => position
  | count, c :: rest =>
      if count = 0 then position
      else if c = '\n' then advance ⟨position.line + 1, 0⟩ (count - 1) rest
      else if count < c.utf8Size then ⟨position.line, position.column + count⟩
      else advance ⟨position.line, position.column + c.utf8Size⟩ (count - c.utf8Size) rest

/-- The place of a fault in the text that was read. -/
def Fault.position (fault : Fault) (text : List Char) : Position :=
  Position.advance ⟨1, 0⟩ (Text.byteCount text - Text.byteCount fault.rest + fault.seen) text

structure Error where
  reason : Reason
  position : Position
deriving Repr, DecidableEq

def Fault.toError (text : List Char) (fault : Fault) : Error :=
  ⟨fault.reason, fault.position text⟩

def Number.text : Number → String
  | .natural n => s!"integer `{n}`"
  | .negative n => s!"integer `-{n}`"
  | .float isNegative magnitude =>
      "floating point `" ++ (if isNegative then "-" else "") ++
        String.ofList magnitude.text ++ "`"

def Found.text : Found → String
  | .null => "null"
  | .bool b => s!"boolean `{b}`"
  | .number n => n.text
  | .sequence => "sequence"
  | .map => "map"

def Reason.message : Reason → String
  | .endInValue => "EOF while parsing a value"
  | .endInList => "EOF while parsing a list"
  | .endInObject => "EOF while parsing an object"
  | .endInString => "EOF while parsing a string"
  | .expectedValue => "expected value"
  | .expectedListEnd => "expected `,` or `]`"
  | .expectedObjectEnd => "expected `,` or `\x7d`"
  | .expectedColon => "expected `:`"
  | .keyNotString => "key must be a string"
  | .trailingComma => "trailing comma"
  | .trailingCharacters => "trailing characters"
  | .expectedWord => "expected ident"
  | .invalidNumber => "invalid number"
  | .numberOutOfRange => "number out of range"
  | .invalidEscape => "invalid escape"
  | .unfinishedPair => "unexpected end of hex escape"
  | .loneSurrogate => "lone leading surrogate in hex escape"
  | .controlCharacter => "control character (\\u0000-\\u001F) found while parsing a string"
  | .tooDeep => "recursion limit exceeded"
  | .notAString found => s!"invalid type: {found.text}, expected a string"

def Error.message (error : Error) : String :=
  s!"{error.reason.message} at line {error.position.line} column {error.position.column}"

end FeatureCompiler.Json
