/-!
Replacing every occurrence of a pattern in a text, from left to right. What has been put in is not
looked at again, so replacements that follow each other have to mind what the earlier ones put in.
-/

namespace FeatureCompiler.Text

/-- The text with a replacement for every occurrence of the pattern, after so many characters that
belong to the last occurrence. -/
def replaceFrom (pattern replacement : List Char) : Nat → List Char → List Char
  | _, [] => []
  | skip + 1, _ :: rest => replaceFrom pattern replacement skip rest
  | 0, c :: rest =>
      if pattern <+: c :: rest then
        replacement ++ replaceFrom pattern replacement (pattern.length - 1) rest
      else c :: replaceFrom pattern replacement 0 rest

/-- The text with a replacement for every occurrence of a pattern that is not empty. -/
def replaced (pattern replacement text : List Char) : List Char :=
  replaceFrom pattern replacement 0 text

/-- The text after one replacement after the other, each in all of what the last one left. -/
def replacedInTurn (replacements : List (List Char × List Char)) (text : List Char) : List Char :=
  replacements.foldl (fun text replacement => replaced replacement.1 replacement.2 text) text

theorem replaced_cons {pattern : List Char} {c : Char} {rest : List Char}
    (h : ¬ pattern <+: c :: rest) (replacement : List Char) :
    replaced pattern replacement (c :: rest) = c :: replaced pattern replacement rest := by
  rw [replaced, replaceFrom, if_neg h]
  rfl

theorem replaceFrom_append (pattern replacement occurrence rest : List Char) :
    replaceFrom pattern replacement occurrence.length (occurrence ++ rest) =
      replaced pattern replacement rest := by
  induction occurrence with
  | nil => rfl
  | cons c occurrence ih =>
      rw [List.length_cons, List.cons_append, replaceFrom]
      exact ih

theorem replaced_occurrence {pattern : List Char} (hpattern : pattern ≠ [])
    (replacement rest : List Char) :
    replaced pattern replacement (pattern ++ rest) =
      replacement ++ replaced pattern replacement rest := by
  cases pattern with
  | nil => exact absurd rfl hpattern
  | cons c pattern =>
      rw [replaced, List.cons_append, replaceFrom, if_pos ⟨rest, rfl⟩, List.length_cons,
        Nat.add_sub_cancel, replaceFrom_append]

/-- A single character is replaced wherever it stands. -/
theorem replaced_char (c : Char) (replacement text : List Char) :
    replaced [c] replacement text = text.flatMap fun d => if d = c then replacement else [d] := by
  induction text with
  | nil => rfl
  | cons d text ih =>
      rw [List.flatMap_cons]
      by_cases hd : d = c
      · subst hd
        rw [if_pos rfl, ← ih]
        exact replaced_occurrence (List.cons_ne_nil _ _) replacement text
      · rw [if_neg hd, ← ih]
        apply replaced_cons
        rintro ⟨rest, hrest⟩
        exact hd (List.cons.inj hrest).1.symm

end FeatureCompiler.Text
