import FeatureCompiler.Proofs.Text.Pieces
import FeatureCompiler.Text.Lines

/-!
Texts that end with a line feed are put together line by line: the lines of the whole are the lines
of the parts, one part after the other. Lines written one below the other are read back as they
were if each is ended by a carriage return and a line feed, whatever carriage returns they hold.
-/

namespace FeatureCompiler.Text

theorem endedLines_append (ended last : List (List Char)) (hlast : last ≠ []) :
    endedLines (ended ++ last) = ended.map dropFinalReturn ++ endedLines last := by
  induction ended with
  | nil => rfl
  | cons piece more ih =>
      have hmore : more ++ last ≠ [] := by simp [hlast]
      rw [List.cons_append, List.map_cons, List.cons_append, ← ih]
      cases hrest : more ++ last with
      | nil => exact absurd hrest hmore
      | cons => rfl

/-- A text whose last character ends a line. -/
def IsEnded (text : List Char) : Prop :=
  text.getLast? = some '\n'

instance (text : List Char) : Decidable (IsEnded text) :=
  inferInstanceAs (Decidable (text.getLast? = some '\n'))

theorem lines_append {first : List Char} (hfirst : IsEnded first) (second : List Char) :
    lines (first ++ second) = lines first ++ lines second := by
  obtain ⟨body, rfl⟩ := List.getLast?_eq_some_iff.mp hfirst
  have hlines (rest : List Char) : lines (body ++ ['\n'] ++ rest) =
      (pieces '\n' body).map dropFinalReturn ++ lines rest := by
    rw [List.append_assoc, List.singleton_append, lines, pieces_append,
      endedLines_append _ _ (pieces_ne_nil '\n' rest), lines]
  have hbody : lines (body ++ ['\n']) = (pieces '\n' body).map dropFinalReturn := by
    simpa [lines, pieces, endedLines] using hlines []
  rw [hlines second, hbody]

theorem newline_notMem_of_mem_lines {text line : List Char} (hline : line ∈ lines text) :
    '\n' ∉ line := by
  have hended (parts : List (List Char)) (hparts : ∀ part ∈ parts, '\n' ∉ part) :
      ∀ line ∈ endedLines parts, '\n' ∉ line := by
    fun_induction endedLines parts with
    | case1 => exact fun line h => absurd h List.not_mem_nil
    | case2 last hempty => exact fun line h => absurd h List.not_mem_nil
    | case3 last hfull => exact hparts
    | case4 part more _ ih =>
        rw [List.forall_mem_cons] at hparts ⊢
        refine ⟨?_, ih hparts.2⟩
        intro h
        unfold dropFinalReturn at h
        split at h
        · exact hparts.1 ((List.dropLast_sublist part).subset h)
        · exact hparts.1 h
  exact hended _ (fun part hpart => notMem_of_mem_pieces hpart) line hline

theorem lines_singleton {raw : List Char} (hraw : '\n' ∉ raw) :
    lines (raw ++ ['\r', '\n']) = [raw] := by
  have hreturn : '\n' ∉ raw ++ ['\r'] := by simp [hraw]
  have hpieces := pieces_append '\n' (raw ++ ['\r']) []
  rw [pieces_of_notMem hreturn] at hpieces
  rw [List.append_cons, lines, hpieces]
  simp [pieces, endedLines, dropFinalReturn]

/-- Lines are read back as they were written. -/
theorem lines_flatMap {raws : List (List Char)} (hraws : ∀ raw ∈ raws, '\n' ∉ raw) :
    lines (raws.flatMap (· ++ ['\r', '\n'])) = raws := by
  induction raws with
  | nil => rfl
  | cons raw rest ih =>
      rw [List.forall_mem_cons] at hraws
      have hended : IsEnded (raw ++ ['\r', '\n']) := by simp [IsEnded]
      rw [List.flatMap_cons, lines_append hended, lines_singleton hraws.1, ih hraws.2]
      rfl

end FeatureCompiler.Text
