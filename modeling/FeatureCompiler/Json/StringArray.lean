import FeatureCompiler.Json.Reader

/-!
JSON arrays of strings. An item that is no string is refused as soon as it is met: after its last
character if it is a scalar, before its bracket otherwise.
-/

namespace FeatureCompiler.Json

/-- Why an item that is no string is refused. -/
def itemFault : List Char → Fault
  | '[' :: rest => ⟨.notAString .sequence, '[' :: rest, 0⟩
  | '{' :: rest => ⟨.notAString .map, '{' :: rest, 0⟩
  | text =>
      match readScalar text with
      | .error fault => fault
      | .ok (.null, rest) => ⟨.notAString .null, rest, 0⟩
      | .ok (.bool b, rest) => ⟨.notAString (.bool b), rest, 0⟩
      | .ok (.number n, rest) => ⟨.notAString (.number n), rest, 0⟩
      | .ok (_, rest) => ⟨.expectedValue, rest, 0⟩

/-- An item of the array after blanks. -/
def readItem (text : List Char) : Except Fault (List Char × List Char) :=
  match skipBlanks text with
  | [] => .error (.atEnd .endInValue)
  | '"' :: rest => readString rest
  | rest => .error (itemFault rest)

theorem readItem_length_lt {text rest item : List Char}
    (h : readItem text = .ok (item, rest)) : rest.length < text.length := by
  unfold readItem at h
  split at h
  · cases h
  · next heq =>
      have := length_lt_of_skipBlanks heq
      have := readString_length_lt h
      omega
  · cases h

/-- An item and all items after it, up to the end of the array. -/
def readItems (text : List Char) : Except Fault (List String × List Char) :=
  match _hitem : readItem text with
  | .error fault => .error fault
  | .ok (item, after) =>
      match _hblanks : skipBlanks after with
      | [] => .error (.atEnd .endInList)
      | ']' :: rest => .ok ([String.ofList item], rest)
      | ',' :: rest => do
          checkNextItem rest
          let (items, final) ← readItems rest
          return (String.ofList item :: items, final)
      | rest => .error (.atNext .expectedListEnd rest)
termination_by text.length
decreasing_by
  have := readItem_length_lt _hitem
  have := length_lt_of_skipBlanks _hblanks
  omega

/-- An array of strings, and the text after it. -/
def readStringArray (text : List Char) : Except Fault (List String × List Char) :=
  match skipBlanks text with
  | [] => .error (.atEnd .endInValue)
  | '[' :: rest =>
      match skipBlanks rest with
      | [] => .error (.atEnd .endInList)
      | ']' :: after => .ok ([], after)
      | _ => readItems rest
  | rest => .error (.atNext .expectedValue rest)

/-- The strings of a JSON text that is an array of strings. -/
def parseStrings (text : List Char) : Except Error (List String) :=
  let result : Except Fault (List String) := do
    let (items, rest) ← readStringArray text
    checkEnd rest
    return items
  result.mapError (Fault.toError text)

end FeatureCompiler.Json
