import FeatureCompiler.Json.Scalar

/-!
JSON texts. Nested values are read with a stack of the arrays and objects that are still open, so
that every step takes at least one character; how deep the stack may get is limited.
-/

namespace FeatureCompiler.Json

/-- An array or object that is still open, its contents so far in reverse. An object waits for the
value of a key. -/
inductive Frame where
  | array (items : List Value)
  | object (members : List (String × Value)) (key : String)
deriving Repr

/-- The number of values that may not be nested in each other any more. -/
def depthLimit : Nat := 128

/-- A key after its opening quote, the colon after it, and the text after that. -/
def readKey (text : List Char) : Except Fault (String × List Char) := do
  let (key, after) ← readString text
  match skipBlanks after with
  | [] => .error (.atEnd .endInObject)
  | ':' :: rest => .ok (String.ofList key, rest)
  | rest => .error (.atNext .expectedColon rest)

theorem readKey_length_lt {text rest : List Char} {key : String}
    (h : readKey text = .ok (key, rest)) : rest.length < text.length := by
  obtain ⟨⟨_, after⟩, hstring, h⟩ := bind_eq_ok h
  have := readString_length_lt hstring
  dsimp only at h
  split at h
  · cases h
  · next heq =>
      have := length_lt_of_skipBlanks heq
      cases h
      omega
  · cases h

/-- A key that has to follow a comma, with its colon. -/
def readNextKey (text : List Char) : Except Fault (String × List Char) :=
  match skipBlanks text with
  | [] => .error (.atEnd .endInValue)
  | '"' :: rest => readKey rest
  | '}' :: rest => .error (.atNext .trailingComma ('}' :: rest))
  | rest => .error (.atNext .keyNotString rest)

theorem readNextKey_length_lt {text rest : List Char} {key : String}
    (h : readNextKey text = .ok (key, rest)) : rest.length < text.length := by
  unfold readNextKey at h
  split at h
  · cases h
  · next heq =>
      have := length_lt_of_skipBlanks heq
      have := readKey_length_lt h
      omega
  · cases h
  · cases h

/-- Refuses a text in which no item of an array can follow a comma. -/
def checkNextItem (text : List Char) : Except Fault Unit :=
  match skipBlanks text with
  | [] => .error (.atEnd .endInValue)
  | ']' :: rest => .error (.atNext .trailingComma (']' :: rest))
  | _ => .ok ()

mutual

/-- A value inside the open frames, and everything up to the end of the outermost one. -/
def readValue (frames : List Frame) (text : List Char) : Except Fault (Value × List Char) :=
  match _hblanks : skipBlanks text with
  | '[' :: rest =>
      if depthLimit ≤ frames.length + 1 then .error (.atNext .tooDeep ('[' :: rest))
      else
        match _hrest : skipBlanks rest with
        | [] => .error (.atEnd .endInList)
        | ']' :: after => resume frames (.array []) after
        | _ => readValue (.array [] :: frames) rest
  | '{' :: rest =>
      if depthLimit ≤ frames.length + 1 then .error (.atNext .tooDeep ('{' :: rest))
      else
        match _hrest : skipBlanks rest with
        | [] => .error (.atEnd .endInObject)
        | '}' :: after => resume frames (.object []) after
        | '"' :: after =>
            match _hkey : readKey after with
            | .error fault => .error fault
            | .ok (key, final) => readValue (.object [] key :: frames) final
        | other => .error (.atNext .keyNotString other)
  | [] => .error (.atEnd .endInValue)
  | rest =>
      match _hscalar : readScalar rest with
      | .error fault => .error fault
      | .ok (value, after) => resume frames value after
termination_by text.length
decreasing_by
  · have := length_lt_of_skipBlanks _hblanks
    have := length_lt_of_skipBlanks _hrest
    omega
  · exact length_lt_of_skipBlanks _hblanks
  · have := length_lt_of_skipBlanks _hblanks
    have := length_lt_of_skipBlanks _hrest
    omega
  · have := length_lt_of_skipBlanks _hblanks
    have := length_lt_of_skipBlanks _hrest
    have := readKey_length_lt _hkey
    omega
  · have := readScalar_length_lt _hscalar
    have := skipBlanks_length_le text
    rw [_hblanks] at this
    omega

/-- Goes on after a value that is complete. -/
def resume (frames : List Frame) (value : Value) (text : List Char) :
    Except Fault (Value × List Char) :=
  match frames with
  | [] => .ok (value, text)
  | .array items :: outer =>
      match _hblanks : skipBlanks text with
      | [] => .error (.atEnd .endInList)
      | ']' :: rest => resume outer (.array (value :: items).reverse) rest
      | ',' :: rest =>
          match checkNextItem rest with
          | .error fault => .error fault
          | .ok () => readValue (.array (value :: items) :: outer) rest
      | rest => .error (.atNext .expectedListEnd rest)
  | .object members key :: outer =>
      match _hblanks : skipBlanks text with
      | [] => .error (.atEnd .endInObject)
      | '}' :: rest => resume outer (.object ((key, value) :: members).reverse) rest
      | ',' :: rest =>
          match _hkey : readNextKey rest with
          | .error fault => .error fault
          | .ok (next, after) => readValue (.object ((key, value) :: members) next :: outer) after
      | rest => .error (.atNext .expectedObjectEnd rest)
termination_by text.length
decreasing_by
  · exact length_lt_of_skipBlanks _hblanks
  · exact length_lt_of_skipBlanks _hblanks
  · exact length_lt_of_skipBlanks _hblanks
  · have := length_lt_of_skipBlanks _hblanks
    have := readNextKey_length_lt _hkey
    omega

end

/-- Refuses a text in which something other than blanks is left. -/
def checkEnd (text : List Char) : Except Fault Unit :=
  match skipBlanks text with
  | [] => .ok ()
  | rest => .error (.atNext .trailingCharacters rest)

def readDocument (text : List Char) : Except Fault Value := do
  let (value, rest) ← readValue [] text
  checkEnd rest
  return value

/-- The value that a JSON text denotes. -/
def Value.parse (text : String) : Except Error Value :=
  (readDocument text.toList).mapError (Fault.toError text.toList)

end FeatureCompiler.Json
