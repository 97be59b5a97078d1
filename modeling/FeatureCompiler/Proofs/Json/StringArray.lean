import FeatureCompiler.Json.StringArray
import FeatureCompiler.Json.Writer
import FeatureCompiler.Proofs.Text.Delimited

/-!
JSON arrays of strings that are written and read back. Whatever the strings hold, the written array
stands for exactly them, and it holds no line end of its own.
-/

namespace FeatureCompiler.Json

theorem readString_escape {c : Char} {text after : List Char} (h : escape text = .ok (c, after)) :
    readString ('\\' :: text) = (readString after).map fun read => (c :: read.1, read.2) := by
  rw [readString]
  split
  · next hescape => cases h.symm.trans hescape
  · next hescape =>
      cases h.symm.trans hescape
      cases readString after <;> rfl

theorem readString_plain {c : Char} (hquote : c ≠ '"') (hbackslash : c ≠ '\\')
    (hcontrol : ¬ c.toNat < 0x20) (rest : List Char) :
    readString (c :: rest) = (readString rest).map fun read => (c :: read.1, read.2) := by
  rw [readString]
  · rw [if_neg hcontrol]
    cases readString rest <;> rfl
  · exact hquote
  · exact hbackslash

/-- Four digits of a code below the surrogates are an escape of their own. -/
theorem unicodeEscape_of_lt {digits : List Char} (hlength : digits.length = 4) {code : Nat}
    (hcode : Text.hexValue? digits = some code) (hlt : code < 0xd800) (rest : List Char) :
    unicodeEscape (digits ++ rest) = .ok (Char.ofNat code, rest) := by
  match digits, hlength with
  | [a, b, c, d], _ =>
      have hbytes : ¬ Text.byteCount (a :: b :: c :: d :: rest) < 4 := by
        have ha := a.utf8Size_pos
        have hb := b.utf8Size_pos
        have hc := c.utf8Size_pos
        have hd := d.utf8Size_pos
        simp only [Text.byteCount]
        omega
      have hhex : hexEscape (a :: b :: c :: d :: rest) = .ok (code, rest) := by
        simp only [hexEscape, if_neg hbytes, hcode]
      have hlow : ¬ (0xdc00 ≤ code ∧ code ≤ 0xdfff) := by omega
      have hhigh : ¬ (0xd800 ≤ code ∧ code ≤ 0xdbff) := by omega
      simp only [List.cons_append, List.nil_append, unicodeEscape, hhex, bind, Except.bind,
        if_neg hlow, if_neg hhigh]
      rfl

theorem readString_unicode {digits : List Char} (hlength : digits.length = 4) {c : Char}
    (hcode : Text.hexValue? digits = some c.toNat) (hlt : c.toNat < 0xd800) (rest : List Char) :
    readString ('\\' :: 'u' :: digits ++ rest) =
      (readString rest).map fun read => (c :: read.1, read.2) := by
  apply readString_escape
  have hunicode := unicodeEscape_of_lt hlength hcode hlt rest
  rwa [Char.ofNat_toNat] at hunicode

theorem readString_writeChar (c : Char) (rest : List Char) :
    readString (writeChar c ++ rest) =
      (readString rest).map fun read => (c :: read.1, read.2) := by
  have hdigit : ∀ code < 0x10, (['0', '0', '0'] ++ Text.lowerHex code).length = 4 ∧
      Text.hexValue? (['0', '0', '0'] ++ Text.lowerHex code) = some code := by
    decide +kernel
  have hdigits : ∀ code < 0x20, 0x10 ≤ code → (['0', '0'] ++ Text.lowerHex code).length = 4 ∧
      Text.hexValue? (['0', '0'] ++ Text.lowerHex code) = some code := by
    decide +kernel
  unfold writeChar
  split
  case h_8 hquote hbackslash _ _ _ _ _ =>
    split
    · next hlt =>
        obtain ⟨hlength, hvalue⟩ := hdigit c.toNat hlt
        exact readString_unicode hlength hvalue (by omega) rest
    · next hge =>
        split
        · next hlt =>
            obtain ⟨hlength, hvalue⟩ := hdigits c.toNat hlt (by omega)
            exact readString_unicode hlength hvalue (by omega) rest
        · next hcontrol => exact readString_plain hquote hbackslash hcontrol rest
  all_goals exact readString_escape rfl

theorem readString_flatMap (text rest : List Char) :
    readString (text.flatMap writeChar ++ '"' :: rest) = .ok (text, rest) := by
  induction text with
  | nil => rw [List.flatMap_nil, List.nil_append, readString]
  | cons c text ih =>
      rw [List.flatMap_cons, List.append_assoc, readString_writeChar, ih]
      rfl

theorem readItem_writeString (text rest : List Char) :
    readItem (writeString text ++ rest) = .ok (text, rest) := by
  have hread := readString_flatMap text rest
  simpa [readItem, writeString, skipBlanks, isBlank] using hread

theorem readItems_last {text item after rest : List Char}
    (hitem : readItem text = .ok (item, after)) (hafter : skipBlanks after = ']' :: rest) :
    readItems text = .ok ([String.ofList item], rest) := by
  rw [readItems]
  split
  · next h => cases hitem.symm.trans h
  · next h =>
      cases hitem.symm.trans h
      split
      · next h => cases hafter.symm.trans h
      · next h =>
          cases hafter.symm.trans h
          rfl
      · next h => cases hafter.symm.trans h
      · next hclose _ => exact (hclose rest hafter).elim

theorem readItems_more {text item after rest : List Char}
    (hitem : readItem text = .ok (item, after)) (hafter : skipBlanks after = ',' :: rest)
    (hnext : checkNextItem rest = .ok ()) :
    readItems text =
      (readItems rest).map fun read => (String.ofList item :: read.1, read.2) := by
  rw [readItems]
  split
  · next h => cases hitem.symm.trans h
  · next h =>
      cases hitem.symm.trans h
      split
      · next h => cases hafter.symm.trans h
      · next h => cases hafter.symm.trans h
      · next h =>
          cases hafter.symm.trans h
          rw [hnext]
          cases readItems rest <;> rfl
      · next hcomma => exact (hcomma rest hafter).elim

/-- Items with commas between them, up to the end of their array. -/
theorem readItems_joined (item : String) (items : List String) (rest : List Char) :
    readItems (Text.joined [','] ((item :: items).map fun item => writeString item.toList) ++
      ']' :: rest) = .ok (item :: items, rest) := by
  induction items generalizing item with
  | nil =>
      rw [Text.joined_map_cons, List.flatMap_nil, List.append_nil,
        readItems_last (readItem_writeString item.toList _) rfl, String.ofList_toList]
  | cons next items ih =>
      have hmore := ih next
      rw [Text.joined_map_cons] at hmore ⊢
      rw [List.flatMap_cons, List.singleton_append, List.append_assoc, List.cons_append,
        List.cons_append, readItems_more (readItem_writeString item.toList _) rfl rfl, hmore,
        String.ofList_toList]
      rfl

theorem readStringArray_writeStrings (items : List String) (rest : List Char) :
    readStringArray (writeStrings items ++ rest) = .ok (items, rest) := by
  cases items with
  | nil => rfl
  | cons item items =>
      have hitems := readItems_joined item items rest
      rw [Text.joined_map_cons] at hitems
      rw [writeStrings, Text.joined_map_cons]
      simpa [readStringArray, writeString, skipBlanks, isBlank] using hitems

/-- Every list of strings is what its written array stands for. -/
theorem parseStrings_writeStrings (items : List String) :
    parseStrings (writeStrings items) = .ok items := by
  have hread := readStringArray_writeStrings items []
  rw [List.append_nil] at hread
  simp only [parseStrings, hread]
  rfl

theorem newline_notMem_writeChar (c : Char) : '\n' ∉ writeChar c := by
  have hdigits : ∀ code < 0x20, '\n' ∉ Text.lowerHex code := by decide +kernel
  unfold writeChar
  split
  case h_8 _ _ _ _ hnewline _ _ =>
    split
    · next hlt => simp [hdigits c.toNat (by omega)]
    · split
      · next hlt => simp [hdigits c.toNat hlt]
      · simpa using Ne.symm hnewline
  all_goals decide

theorem newline_notMem_writeStrings (items : List String) : '\n' ∉ writeStrings items := by
  have hstring (text : List Char) : '\n' ∉ writeString text := by
    simp [writeString, newline_notMem_writeChar]
  have hitems : '\n' ∉ Text.joined [','] (items.map fun item => writeString item.toList) := by
    cases items with
    | nil => exact List.not_mem_nil
    | cons item items =>
        rw [Text.joined_map_cons]
        simp [hstring]
  simp [writeStrings, hitems]

end FeatureCompiler.Json
