import FeatureCompiler.Annotation.Coercion
import FeatureCompiler.Annotation.Set
import FeatureCompiler.Proofs.Json.StringArray
import FeatureCompiler.Proofs.Text.Pieces
import FeatureCompiler.Proofs.Text.Trim

/-!
Three ways to write the value of an annotation, each of which is read back: a list as a JSON array,
a text in double quotes, and a list of pieces with commas between them. The last one depends on what
the pieces are, because brackets and quotes around the whole text are looked for first. Blanks
around a value never count, nor do those around a piece.
-/

namespace FeatureCompiler

namespace Text

/-- Where pieces are trimmed one by one, the whole text may be trimmed before. -/
theorem map_trim_pieces_trim {separator : Char} (hseparator : isBlank separator = false)
    (text : List Char) :
    (pieces separator (trim text)).map trim = (pieces separator text).map trim := by
  obtain ⟨before, after, hbefore, hafter, htext⟩ := exists_blanks_trim text
  generalize trim text = trimmed at htext
  subst htext
  -- The blanks behind the text go to its last piece, and those in front to the first piece of that.
  obtain ⟨init, last, hlast⟩ : ∃ init last, pieces separator trimmed = init ++ [last] := by
    obtain hnil | ⟨init, last, hconcat⟩ := List.eq_nil_or_concat (pieces separator trimmed)
    · exact absurd hnil (pieces_ne_nil _ _)
    · exact ⟨init, last, by rw [hconcat, List.concat_eq_append]⟩
  have hright := pieces_append_right (notMem_of_isBlank hseparator hafter) hlast
  obtain ⟨first, more, hfirst⟩ := List.exists_cons_of_ne_nil
    (pieces_ne_nil separator (trimmed ++ after))
  have hleft := pieces_append_left (notMem_of_isBlank hseparator hbefore) hfirst
  have htrimLeft : trim (before ++ first) = trim first := by
    simpa using trim_blanks hbefore (List.forall_mem_nil _) first
  have htrimRight : trim (last ++ after) = trim last := by
    simpa using trim_blanks (List.forall_mem_nil _) hafter last
  calc (pieces separator trimmed).map trim
      = (init ++ [last ++ after]).map trim := by
        rw [hlast, List.map_append, List.map_append, List.map_singleton, List.map_singleton,
          htrimRight]
    _ = (first :: more).map trim := by rw [← hright, hfirst]
    _ = ((before ++ first) :: more).map trim := by rw [List.map_cons, List.map_cons, htrimLeft]
    _ = (pieces separator (before ++ trimmed ++ after)).map trim := by
        rw [List.append_assoc, hleft]

end Text

/-- A value as it is written behind the equals sign. -/
def AnnotationValue.written : AnnotationValue → List Char
  | .single text => '"' :: text.toList ++ ['"']
  | .list items => Json.writeStrings items

/-- A piece between commas, with the blanks around it. -/
structure CommaPiece where
  before : List Char
  text : String
  after : List Char
  blank_before : ∀ c ∈ before, Text.isBlank c = true
  blank_after : ∀ c ∈ after, Text.isBlank c = true
  isTrimmed : Text.IsTrimmed text.toList
  comma_notMem : ',' ∉ text.toList

namespace CommaPiece

def written (piece : CommaPiece) : List Char :=
  piece.before ++ piece.text.toList ++ piece.after

/-- A piece whose parts are checked by evaluation. -/
def ofChecked (before : List Char) (text : String) (after : List Char)
    (hbefore : before.all Text.isBlank = true) (htext : Text.trim text.toList = text.toList)
    (hcomma : text.toList.contains ',' = false) (hafter : after.all Text.isBlank = true) :
    CommaPiece where
  before := before
  text := text
  after := after
  blank_before := List.all_eq_true.mp hbefore
  blank_after := List.all_eq_true.mp hafter
  isTrimmed := htext ▸ Text.isTrimmed_trim _
  comma_notMem := by simpa using hcomma

theorem trim_written (piece : CommaPiece) : Text.trim piece.written = piece.text.toList := by
  rw [written, Text.trim_blanks piece.blank_before piece.blank_after,
    Text.trim_of_isTrimmed piece.isTrimmed]

theorem comma_notMem_written (piece : CommaPiece) : ',' ∉ piece.written := by
  have hcomma : Text.isBlank ',' = false := by decide
  simp only [written, List.mem_append, not_or]
  exact ⟨⟨Text.notMem_of_isBlank hcomma piece.blank_before, piece.comma_notMem⟩,
    Text.notMem_of_isBlank hcomma piece.blank_after⟩

/-- Pieces with commas between them. -/
def list (pieces : List CommaPiece) : List Char :=
  Text.joined [','] (pieces.map written)

theorem map_trim_pieces_list {pieces : List CommaPiece} (hpieces : pieces ≠ []) :
    (Text.pieces ',' (list pieces)).map Text.trim = pieces.map fun piece => piece.text.toList := by
  rw [list, Text.pieces_joined (by simpa using hpieces), List.map_map]
  · exact List.map_congr_left fun piece _ => piece.trim_written
  · intro part hpart
    obtain ⟨piece, -, rfl⟩ := List.mem_map.mp hpart
    exact piece.comma_notMem_written

end CommaPiece

namespace AnnotationValue

theorem written_enclosed (value : AnnotationValue) :
    ∃ first last inner, value.written = first :: inner ++ [last] ∧
      Text.isBlank first = false ∧ Text.isBlank last = false := by
  cases value with
  | single text => exact ⟨'"', '"', text.toList, rfl, by decide, by decide⟩
  | list items => exact ⟨'[', ']', _, rfl, by decide, by decide⟩

theorem isTrimmed_written (value : AnnotationValue) : Text.IsTrimmed value.written := by
  obtain ⟨first, last, inner, hwritten, hfirst, hlast⟩ := value.written_enclosed
  rw [hwritten]
  exact .enclosed hfirst hlast inner

/-- A written value is read back, whatever commas, quotes, brackets and blanks it holds. -/
theorem coerce_written (value : AnnotationValue) : coerce value.written = .ok value := by
  rw [coerce, Text.trim_of_isTrimmed value.isTrimmed_written]
  cases value with
  | single text =>
      have hlist : enclosed? '[' ']' ('"' :: text.toList ++ ['"']) = none := by
        simp [enclosed?]
      have hquoted : enclosed? '"' '"' ('"' :: text.toList ++ ['"']) = some text.toList := by
        simp [enclosed?]
      simp only [written, ofTrimmed, hlist, hquoted, Option.isSome_none, Bool.false_eq_true,
        if_false, String.ofList_toList]
  | list items =>
      have hlist : (enclosed? '[' ']' (Json.writeStrings items)).isSome = true := by
        simp [enclosed?, Json.writeStrings]
      rw [written, ofTrimmed, if_pos hlist, Json.parseStrings_writeStrings]
      rfl

theorem coerce_blanks {before after : List Char} (hbefore : ∀ c ∈ before, Text.isBlank c = true)
    (hafter : ∀ c ∈ after, Text.isBlank c = true) (raw : List Char) :
    coerce (before ++ raw ++ after) = coerce raw := by
  rw [coerce, coerce, Text.trim_blanks hbefore hafter]

/-- The text starts with the one character and ends with the other. -/
def Encloses (first last : Char) (text : List Char) : Prop :=
  text.head? = some first ∧ text.getLast? = some last

instance (first last : Char) (text : List Char) : Decidable (Encloses first last text) :=
  inferInstanceAs (Decidable (_ ∧ _))

theorem enclosed?_eq_none {first last : Char} {text : List Char}
    (h : ¬ Encloses first last text) : enclosed? first last text = none := by
  cases text with
  | nil => rfl
  | cons c rest =>
      apply if_neg
      rintro ⟨rfl, hlast⟩
      apply h
      refine ⟨rfl, ?_⟩
      rw [List.getLast?_cons, hlast]
      rfl

theorem coerce_commaList {pieces : List CommaPiece} (hlength : 2 ≤ pieces.length)
    (hbrackets : ¬ Encloses '[' ']' (Text.trim (CommaPiece.list pieces)))
    (hquotes : ¬ Encloses '"' '"' (Text.trim (CommaPiece.list pieces))) :
    coerce (CommaPiece.list pieces) = .ok (.list (pieces.map CommaPiece.text)) := by
  have hpieces : pieces ≠ [] := List.ne_nil_of_length_pos (by omega)
  have htrimmed : (Text.pieces ',' (Text.trim (CommaPiece.list pieces))).map Text.trim =
      pieces.map fun piece => piece.text.toList := by
    rw [Text.map_trim_pieces_trim (by decide), CommaPiece.map_trim_pieces_list hpieces]
  have hcomma : (Text.trim (CommaPiece.list pieces)).contains ',' = true := by
    rw [List.contains_iff_mem]
    by_contra hnone
    have hone := congrArg List.length htrimmed
    simp only [Text.pieces_of_notMem hnone, List.length_map, List.length_singleton] at hone
    omega
  have hitems : (Text.pieces ',' (Text.trim (CommaPiece.list pieces))).map
      (fun piece => String.ofList (Text.trim piece)) = pieces.map CommaPiece.text := by
    have hmap := congrArg (List.map String.ofList) htrimmed
    simpa only [List.map_map, Function.comp_def, String.ofList_toList] using hmap
  simp only [coerce, ofTrimmed, enclosed?_eq_none hbrackets, enclosed?_eq_none hquotes,
    Option.isSome_none, Bool.false_eq_true, if_false, hcomma, if_true, hitems]

/-- Reading a value undoes every way of writing it, with any blanks around the whole. The array that
is written for a list gives the list, a text between double quotes gives the text as it stands, and
two or more pieces with commas between them give the pieces without the blanks around them, unless
the whole stands in brackets or in quotes. -/
theorem coerce_undoes_writing {before after : List Char}
    (hbefore : ∀ c ∈ before, Text.isBlank c = true)
    (hafter : ∀ c ∈ after, Text.isBlank c = true) :
    (∀ items : List String,
      coerce (before ++ (AnnotationValue.list items).toJson ++ after) = .ok (.list items)) ∧
    (∀ text : String,
      coerce (before ++ ('"' :: text.toList ++ ['"']) ++ after) = .ok (.single text)) ∧
    ∀ pieces : List CommaPiece, 2 ≤ pieces.length →
      ¬ Encloses '[' ']' (Text.trim (CommaPiece.list pieces)) →
      ¬ Encloses '"' '"' (Text.trim (CommaPiece.list pieces)) →
      coerce (before ++ CommaPiece.list pieces ++ after) =
        .ok (.list (pieces.map CommaPiece.text)) := by
  simp only [coerce_blanks hbefore hafter]
  refine ⟨?_, ?_, ?_⟩
  · intro items
    exact coerce_written (.list items)
  · intro text
    exact coerce_written (.single text)
  · intro pieces hlength hbrackets hquotes
    exact coerce_commaList hlength hbrackets hquotes

/-- Pieces of which the first starts with a bracket and the last ends with a quote. -/
def hostilePieces : List CommaPiece :=
  [.ofChecked [' ', '\t'] "[a" ['\u3000'] (by decide) (by decide) (by decide) (by decide),
    .ofChecked [] "" ['\u00a0'] (by decide) (by decide) (by decide) (by decide),
    .ofChecked ['\n'] "b \"]\"" [] (by decide) (by decide) (by decide) (by decide)]

theorem coerce_undoes_writing_hostile :
    (∀ c ∈ ['\u2028', ' '], Text.isBlank c = true) ∧ (∀ c ∈ ['\r'], Text.isBlank c = true) ∧
      coerce ("\u2028 [\"a, \\\"b\\\"\",\"\",\"]\\n\\u001f\"]\r".toList) =
        .ok (.list ["a, \"b\"", "", "]\n\x1f"]) ∧
      coerce "\u2028 \"[\"a\", \\]\"\r".toList = .ok (.single "[\"a\", \\]") ∧
      coerce "\u2028  \t[a\u3000,\u00a0,\nb \"]\"\r".toList =
        .ok (.list ["[a", "", "b \"]\""]) := by
  have hbefore : ∀ c ∈ ['\u2028', ' '], Text.isBlank c = true := List.all_eq_true.mp (by decide)
  have hafter : ∀ c ∈ ['\r'], Text.isBlank c = true := List.all_eq_true.mp (by decide)
  obtain ⟨hlist, htext, hpieces⟩ := coerce_undoes_writing hbefore hafter
  refine ⟨hbefore, hafter, ?_, ?_, ?_⟩
  · exact hlist ["a, \"b\"", "", "]\n\x1f"]
  · exact htext "[\"a\", \\]"
  · exact hpieces hostilePieces (by decide) (by decide) (by decide)

end AnnotationValue

end FeatureCompiler
