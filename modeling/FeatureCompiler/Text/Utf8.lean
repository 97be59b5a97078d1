/-!
Texts as bytes in UTF-8, and bytes as texts. Bytes can be read as a text even where they are none.
A byte with which no character starts, and a character that is cut off, then show as the character
that stands for what cannot be read.
-/

namespace FeatureCompiler

abbrev Bytes := List UInt8

namespace Text

def utf8 (text : List Char) : Bytes :=
  text.flatMap String.utf8EncodeChar

/-- The bytes of a text. -/
def bytes (text : String) : Bytes :=
  utf8 text.toList

instance : Coe String Bytes := ⟨bytes⟩

/-- What stands for bytes that are no character. -/
def replacement : Char := '�'

/-- A character that has been started and not ended. -/
structure Started where
  /-- Its digits to the base 64, as far as they have been read. -/
  code : Nat
  /-- How many bytes have to come after the next one. -/
  owed : Nat
  /-- The least and the greatest byte that can come next. -/
  low : Nat
  high : Nat
deriving Repr, DecidableEq

/-- The character of several bytes that a byte starts. Characters are written with as few bytes as
possible, and halves of surrogate pairs are none, so the second byte may be bounded further. -/
def Started.ofByte? (byte : Nat) : Option Started :=
  if byte < 0xc2 then none
  else if byte < 0xe0 then some ⟨byte - 0xc0, 0, 0x80, 0xbf⟩
  else if byte = 0xe0 then some ⟨0, 1, 0xa0, 0xbf⟩
  else if byte = 0xed then some ⟨0xd, 1, 0x80, 0x9f⟩
  else if byte < 0xf0 then some ⟨byte - 0xe0, 1, 0x80, 0xbf⟩
  else if byte = 0xf0 then some ⟨0, 2, 0x90, 0xbf⟩
  else if byte < 0xf4 then some ⟨byte - 0xf0, 2, 0x80, 0xbf⟩
  else if byte = 0xf4 then some ⟨4, 2, 0x80, 0x8f⟩
  else none

/-- The characters that are read with a byte between characters, and what it starts. -/
def readFirst (byte : Nat) : List Char × Option Started :=
  if byte < 0x80 then ([Char.ofNat byte], none)
  else
    match Started.ofByte? byte with
    | some started => ([], some started)
    | none => ([replacement], none)

/-- The characters that are read with a byte, and what is started then. A byte that does not go on
with a character cuts it off, and is read like any other. -/
def readByte (byte : Nat) : Option Started → List Char × Option Started
  | none => readFirst byte
  | some started =>
      if started.low ≤ byte ∧ byte ≤ started.high then
        let code := started.code * 64 + (byte - 0x80)
        match started.owed with
        | 0 => ([Char.ofNat code], none)
        | owed + 1 => ([], some ⟨code, owed, 0x80, 0xbf⟩)
      else (replacement :: (readFirst byte).1, (readFirst byte).2)

def lossyFrom (started? : Option Started) : Bytes → List Char
  | [] => if started?.isSome then [replacement] else []
  | byte :: rest =>
      let step := readByte byte.toNat started?
      step.1 ++ lossyFrom step.2 rest

/-- Bytes read as a text, whether they are one or not. -/
def lossy (bytes : Bytes) : List Char :=
  lossyFrom none bytes

end Text

end FeatureCompiler
