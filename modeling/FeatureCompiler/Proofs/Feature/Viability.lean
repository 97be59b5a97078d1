import FeatureCompiler.Proofs.Feature.Blocks

/-!
Where reading fails. Whatever lines have been read, some file goes on from them: a feature header or
a scenario header is enough to complete it. A line that cannot be read makes all that follows it
irrelevant. So a fault in a line is reported at the first line with which no file can go on, and a
fault at the end of a file is one that more lines would have mended.
-/

namespace FeatureCompiler

/-- Whether a fault shows only at the end of a file, and not in a line of it. -/
def ParseError.Cause.isAtEnd : ParseError.Cause → Bool
  | .missingFeature | .annotationsAtEnd => true
  | _ => false

theorem Line.isAtEnd_of_classify {raw : List Char} {cause : ParseError.Cause}
    (h : classify raw = .error cause) : cause.isAtEnd = false := by
  unfold classify at h
  split at h
  · cases h
  · cases h
  · unfold ofDirective at h
    split at h
    · cases h
      rfl
    · dsimp only at h
      split at h
      · cases h
        rfl
      · cases h
  · split at h <;> cases h

namespace Draft

theorem isAtEnd_of_addLine {draft : Draft} {number : Nat} {line : Line}
    {cause : ParseError.Cause} (h : draft.addLine number line = .error cause) :
    cause.isAtEnd = false := by
  cases line with
  | blank => cases h
  | comment => cases h
  | tag key raw =>
      rw [addLine] at h
      split at h
      · cases h
      · cases h
        rfl
  | feature name =>
      cases draft with
      | untitled pending => cases h
      | titled =>
          cases h
          rfl
  | scenario name =>
      cases draft with
      | untitled pending =>
          cases h
          rfl
      | titled => cases h
  | text text =>
      rw [addLine] at h
      unfold addStep at h
      split at h
      · cases h
        rfl
      · cases h
        rfl
      · split at h
        · cases h
        · cases h
          rfl

theorem isAtEnd_of_finish {draft : Draft} {cause : ParseError.Cause}
    (h : draft.finish = .error cause) : cause.isAtEnd = true := by
  unfold finish at h
  split at h
  · cases h
    rfl
  · split at h
    · cases h
    · cases h
      rfl

/-- A line leads to a next draft or is refused, and what follows it makes no difference to that. -/
theorem addLines_cons_cases (draft : Draft) (number : Nat) (raw : List Char) :
    (∃ next : Draft, ∀ rest,
      draft.addLines number (raw :: rest) = next.addLines (number + 1) rest) ∨
      ∃ cause, cause.isAtEnd = false ∧
        ∀ rest, draft.addLines number (raw :: rest) = .error ⟨number, cause⟩ := by
  cases hline : Line.classify raw with
  | error cause =>
      refine .inr ⟨cause, Line.isAtEnd_of_classify hline, fun rest => ?_⟩
      rw [addLines, hline]
      rfl
  | ok line =>
      cases hnext : draft.addLine number line with
      | error cause =>
          refine .inr ⟨cause, isAtEnd_of_addLine hnext, fun rest => ?_⟩
          rw [addLines, hline, Except.mapError, ok_bind, hnext]
          rfl
      | ok next =>
          refine .inl ⟨next, fun rest => ?_⟩
          rw [addLines, hline, Except.mapError, ok_bind, hnext, Except.mapError, ok_bind]

/-- Lines that are refused have a first one that is, and it is refused for the same reason whatever
follows it. -/
theorem addLines_eq_error {draft : Draft} {number : Nat} {raws : List (List Char)}
    {error : ParseError} (h : draft.addLines number raws = .error error) :
    error.cause.isAtEnd = false ∧ ∃ before raw after next,
      raws = before ++ raw :: after ∧ error.line = number + before.length ∧
        draft.addLines number before = .ok next ∧
        ∀ rest, draft.addLines number (before ++ raw :: rest) = .error error := by
  induction raws generalizing draft number with
  | nil => cases h
  | cons raw after ih =>
      rcases draft.addLines_cons_cases number raw with ⟨next, hnext⟩ | ⟨cause, hcause, hrefused⟩
      · rw [hnext] at h
        obtain ⟨hcause, before, refused, rest, last, rfl, hnumber, hlast, hrefused⟩ := ih h
        refine ⟨hcause, raw :: before, refused, rest, last, rfl, ?_, ?_, ?_⟩
        · rw [hnumber, List.length_cons]
          omega
        · rw [hnext, hlast]
        · intro other
          rw [List.cons_append, hnext, hrefused other]
      · cases h.symm.trans (hrefused after)
        exact ⟨hcause, [], raw, after, draft, rfl, rfl, rfl, hrefused⟩

/-- Lines that complete a draft. -/
def completion : Draft → List (List Char)
  | .untitled _ => ["Feature:".toList]
  | .titled .. => ["Scenario:".toList]

theorem exists_document_of_completion (draft : Draft) (number : Nat) :
    ∃ final document, draft.addLines number draft.completion = .ok final ∧
      final.finish = .ok document := by
  cases draft with
  | untitled pending => exact ⟨.titled "" pending [] ∅, _, rfl, rfl⟩
  | titled feature annotations scenarios pending =>
      exact ⟨.titled feature annotations (⟨"", pending, []⟩ :: scenarios) ∅, _, rfl, rfl⟩

end Draft

namespace Document

/-- The lines of a text as they are counted when it is read. -/
def linesOf (text : String) : List (List Char) :=
  Text.lines (withoutMark text.toList)

/-- Whether some text that can be read starts with these lines. -/
def Viable (raws : List (List Char)) : Prop :=
  ∃ text more document, linesOf text = raws ++ more ∧ parse text = .ok document

/-- A text with these lines. The mark in front keeps one that the first line may have, and the
returns keep those at the ends of lines. -/
theorem linesOf_ofList {raws : List (List Char)} (hraws : ∀ raw ∈ raws, '\n' ∉ raw) :
    linesOf (String.ofList ('\ufeff' :: raws.flatMap (· ++ ['\r', '\n']))) = raws := by
  rw [linesOf, String.toList_ofList, withoutMark, Text.lines_flatMap hraws]

theorem viable_of_addLines {raws : List (List Char)} (hraws : ∀ raw ∈ raws, '\n' ∉ raw)
    {draft : Draft} (h : Draft.start.addLines 1 raws = .ok draft) : Viable raws := by
  obtain ⟨final, document, hfinal, hdocument⟩ :=
    draft.exists_document_of_completion (1 + raws.length)
  have hmore : ∀ raw ∈ raws ++ draft.completion, '\n' ∉ raw := by
    rw [List.forall_mem_append]
    refine ⟨hraws, ?_⟩
    cases draft <;> exact List.forall_mem_singleton.mpr (by decide)
  have hlines := linesOf_ofList hmore
  refine ⟨_, draft.completion, document, hlines, ?_⟩
  rw [linesOf] at hlines
  rw [parse, hlines, ofLines, bind_eq_ok_iff]
  refine ⟨final, Draft.addLines_append_eq_ok_iff.mpr ⟨draft, h, hfinal⟩, ?_⟩
  rw [mapError_eq_ok_iff]
  exact hdocument

/-- A text that cannot be read has a line that is refused, or all its lines are read and something
is missing at the end. -/
theorem parse_eq_error {text : String} {error : ParseError} (h : parse text = .error error) :
    Draft.start.addLines 1 (linesOf text) = .error error ∨
      ∃ draft, Draft.start.addLines 1 (linesOf text) = .ok draft ∧
        draft.finish = .error error.cause ∧ error.line = max 1 (linesOf text).length := by
  rcases bind_eq_error h with hlines | ⟨draft, hdraft, hfinish⟩
  · exact .inl hlines
  · refine .inr ⟨draft, hdraft, ?_⟩
    cases hcause : draft.finish with
    | ok document =>
        rw [hcause] at hfinish
        cases hfinish
    | error cause =>
        rw [hcause] at hfinish
        cases hfinish
        exact ⟨rfl, rfl⟩

/-- Reading fails at the earliest line at which a text is beyond repair. A fault in a line depends
on the lines up to it alone, and the lines before it are the beginning of some text that can be
read. A fault at the end is put down to the last line, and more lines would have mended it. -/
theorem parse_error_earliest {text : String} {error : ParseError}
    (h : parse text = .error error) :
    1 ≤ error.line ∧ error.line ≤ max 1 (linesOf text).length ∧
    (error.cause.isAtEnd = false →
      error.line ≤ (linesOf text).length ∧
      (∀ other, (linesOf other).take error.line = (linesOf text).take error.line →
        parse other = .error error) ∧
      Viable ((linesOf text).take (error.line - 1))) ∧
    (error.cause.isAtEnd = true →
      error.line = max 1 (linesOf text).length ∧ Viable (linesOf text)) := by
  have hnewline : ∀ raw ∈ linesOf text, '\n' ∉ raw :=
    fun raw => Text.newline_notMem_of_mem_lines
  rcases parse_eq_error h with hlines | ⟨draft, hdraft, hfinish, hline⟩
  · obtain ⟨hcause, before, raw, after, next, hsplit, hline, hbefore, hrefused⟩ :=
      Draft.addLines_eq_error hlines
    have hlength : (linesOf text).length = before.length + (after.length + 1) := by
      rw [hsplit, List.length_append, List.length_cons]
    have htake : (linesOf text).take error.line = before ++ [raw] := by
      rw [hsplit, hline, Nat.add_comm, List.append_cons]
      exact List.take_left' (by simp)
    have hearlier : (linesOf text).take (error.line - 1) = before := by
      rw [hsplit, hline, Nat.add_sub_cancel_left, List.take_left]
    refine ⟨by omega, by omega, fun _ => ⟨by omega, ?_, ?_⟩, fun hend => ?_⟩
    · intro other hother
      have hsame : linesOf other = before ++ raw :: (linesOf other).drop error.line := by
        rw [List.append_cons, ← htake, ← hother, List.take_append_drop]
      rw [parse, ← linesOf, hsame, ofLines, hrefused]
      rfl
    · rw [hearlier]
      refine viable_of_addLines (fun raw hraw => hnewline raw ?_) hbefore
      rw [hsplit]
      exact List.mem_append_left _ hraw
    · rw [hcause] at hend
      cases hend
  · have hend := Draft.isAtEnd_of_finish hfinish
    refine ⟨by omega, by omega, fun hcause => ?_, fun _ => ⟨hline, ?_⟩⟩
    · rw [hend] at hcause
      cases hcause
    · exact viable_of_addLines hnewline hdraft

def misplacedTag : String :=
  "@a=1\nFeature: F\n\nScenario: S\n@b=2\n  When I test\nScenario: T\n"

theorem parse_error_earliest_misplacedTag :
    parse misplacedTag = .error ⟨6, .annotationsBeforeStep⟩ ∧
      (∀ other, (linesOf other).take 6 = (linesOf misplacedTag).take 6 →
        parse other = .error ⟨6, .annotationsBeforeStep⟩) ∧
      Viable ((linesOf misplacedTag).take 5) ∧
      parse "Feature: F\n@b=2" = .error ⟨2, .annotationsAtEnd⟩ ∧
      Viable (linesOf "Feature: F\n@b=2") := by
  have hline : parse misplacedTag = .error ⟨6, .annotationsBeforeStep⟩ := by
    with_unfolding_all rfl
  have hend : parse "Feature: F\n@b=2" = .error ⟨2, .annotationsAtEnd⟩ := by
    with_unfolding_all rfl
  obtain ⟨-, -, hrefused, -⟩ := parse_error_earliest hline
  obtain ⟨-, hother, hviable⟩ := hrefused rfl
  obtain ⟨-, -, -, hmissing⟩ := parse_error_earliest hend
  exact ⟨hline, hother, hviable, hend, (hmissing rfl).2⟩

end Document

end FeatureCompiler
