import FeatureCompiler.Proofs.Feature.Source
import Mathlib.Logic.Relation

/-!
The layout of feature files. What a file says is decided by those of its lines that are neither
blank nor comments, and of these by what follows the blanks in front. So blank lines and comments
can come and go, lines can be indented, and line ends can be written in either way: the document
stays the same but for the numbers of its lines, and so does the reason why there is none.
-/

namespace FeatureCompiler

/-- A blank line or a comment. -/
def SaysNothing (line : List Char) : Prop :=
  ∀ c ∈ (Text.trimStart line).head?, c = '#'

/-- Blanks that can stand in front of a line. -/
def IsIndent (blanks : List Char) : Prop :=
  ∀ c ∈ blanks, Text.isBlank c = true ∧ c ≠ '\n' ∧ c ≠ '\r'

/-- One change to the layout of some lines. -/
inductive LayoutChange : List (List Char) → List (List Char) → Prop where
  | insert {above below : List (List Char)} {line : List Char} :
      SaysNothing line → '\n' ∉ line → LayoutChange (above ++ below) (above ++ line :: below)
  | delete {above below : List (List Char)} {line : List Char} :
      SaysNothing line → LayoutChange (above ++ line :: below) (above ++ below)
  | indent {above below : List (List Char)} {blanks others line : List Char} :
      IsIndent blanks → IsIndent others →
        LayoutChange (above ++ (blanks ++ line) :: below) (above ++ (others ++ line) :: below)

/-- The lines of a text, the last of which has no line end. A line end is a line feed, with or
without a carriage return before it. -/
inductive IsWritten : List (List Char) → List Char → Prop where
  | nil : IsWritten [] []
  | last (line : List Char) : IsWritten [line] line
  | feed {line next text : List Char} {rest : List (List Char)} :
      IsWritten (next :: rest) text → IsWritten (line :: next :: rest) (line ++ '\n' :: text)
  | returnFeed {line next text : List Char} {rest : List (List Char)} :
      IsWritten (next :: rest) text →
        IsWritten (line :: next :: rest) (line ++ '\r' :: '\n' :: text)

/-- The second text is the first one with changes to its layout. -/
def Relaid (text changed : List Char) : Prop :=
  ∃ lines, Relation.ReflTransGen LayoutChange (Text.pieces '\n' text) lines ∧
    IsWritten lines changed

section Lines

theorem trimStart_indent {blanks : List Char} (hblanks : IsIndent blanks) (line : List Char) :
    Text.trimStart (blanks ++ line) = Text.trimStart line :=
  List.dropWhile_append_of_pos fun c hc => (hblanks c hc).1

/-- Blanks in front of a line do not matter. -/
theorem Line.classify_congr {first second : List Char}
    (h : Text.trimStart first = Text.trimStart second) : classify first = classify second := by
  rw [classify, classify, Text.trim, Text.trim, h]

theorem SaysNothing.classify {line : List Char} (h : SaysNothing line) :
    IsQuietLine line := by
  cases htrim : Text.trimStart line with
  | nil => exact ⟨.blank, by simp [Line.classify, Text.trim, htrim, Text.trimEnd], rfl⟩
  | cons c rest =>
      obtain rfl : c = '#' := by
        apply h
        rw [htrim]
        rfl
      have hcomment : Text.trimEnd ('#' :: rest) = '#' :: Text.trimEnd rest :=
        Text.trimEnd_append (rfl : ['#'].getLast? = some '#') (by decide) rest
      exact ⟨.comment, by simp [Line.classify, Text.trim, htrim, hcomment], rfl⟩

/-- What the lines are that say something, or why there is none. -/
def significant (raws : List (List Char)) : List (Except ParseError.Cause Line) :=
  (raws.map Line.classify).filter fun line => line.toOption.all Line.isSignificant

theorem significant_append (first second : List (List Char)) :
    significant (first ++ second) = significant first ++ significant second := by
  rw [significant, List.map_append, List.filter_append]
  rfl

theorem significant_quiet {raw : List Char} (hraw : IsQuietLine raw) (raws : List (List Char)) :
    significant (raw :: raws) = significant raws := by
  obtain ⟨line, hline, hquiet⟩ := hraw
  simp [significant, hline, Except.toOption, hquiet]

theorem significant_cons_congr {first second : List Char} {raws : List (List Char)}
    (h : Line.classify first = Line.classify second) :
    significant (first :: raws) = significant (second :: raws) := by
  rw [significant, significant, List.map_cons, List.map_cons, h]

theorem significant_of_change {lines changed : List (List Char)}
    (h : LayoutChange lines changed) : significant changed = significant lines := by
  cases h with
  | insert hline _ =>
      rw [significant_append, significant_append, significant_quiet hline.classify]
  | delete hline =>
      rw [significant_append, significant_append, significant_quiet hline.classify]
  | @indent above below blanks others line hblanks hothers =>
      have hline : Line.classify (others ++ line) = Line.classify (blanks ++ line) := by
        apply Line.classify_congr
        rw [trimStart_indent hothers, trimStart_indent hblanks]
      rw [significant_append, significant_append, significant_cons_congr hline]

end Lines

section Writing

/-- A line that is read back when it is written. A carriage return at its end can be lost, and a
byte-order mark at its start could be taken for that of the text. -/
structure IsPlainLine (line : List Char) : Prop where
  newline : '\n' ∉ line
  final : line.getLast? = some '\r' → SaysNothing line
  mark : (Text.trimStart line).head? ≠ some '\ufeff'

theorem isPlainLine_of_saysNothing {line : List Char} (hline : SaysNothing line)
    (hnewline : '\n' ∉ line) : IsPlainLine line := by
  refine ⟨hnewline, fun _ => hline, fun hmark => ?_⟩
  exact absurd (hline _ hmark) (by decide)

theorem isPlainLine_indent {blanks others line : List Char} (hblanks : IsIndent blanks)
    (hothers : IsIndent others) (h : IsPlainLine (blanks ++ line)) :
    IsPlainLine (others ++ line) := by
  have htrim : Text.trimStart (others ++ line) = Text.trimStart (blanks ++ line) := by
    rw [trimStart_indent hothers, trimStart_indent hblanks]
  obtain ⟨hnewline, hfinal, hmark⟩ := h
  rw [← htrim] at hmark
  refine ⟨?_, ?_, hmark⟩
  · intro hmem
    rcases List.mem_append.mp hmem with hmem | hmem
    · exact (hothers _ hmem).2.1 rfl
    · exact hnewline (List.mem_append_right _ hmem)
  · intro hlast
    rcases List.eq_nil_or_concat line with rfl | ⟨init, c, rfl⟩
    · rw [List.append_nil] at hlast
      exact absurd rfl (hothers _ (List.mem_of_getLast? hlast)).2.2
    · rw [SaysNothing, htrim]
      apply hfinal
      rw [List.concat_eq_append, ← List.append_assoc, List.getLast?_concat] at hlast ⊢
      exact hlast

theorem isPlainLine_of_change {lines changed : List (List Char)} (h : LayoutChange lines changed)
    (hlines : ∀ line ∈ lines, IsPlainLine line) : ∀ line ∈ changed, IsPlainLine line := by
  cases h with
  | insert hline hnewline =>
      rw [List.forall_mem_append] at hlines
      rw [List.forall_mem_append, List.forall_mem_cons]
      exact ⟨hlines.1, isPlainLine_of_saysNothing hline hnewline, hlines.2⟩
  | delete hline =>
      rw [List.forall_mem_append, List.forall_mem_cons] at hlines
      rw [List.forall_mem_append]
      exact ⟨hlines.1, hlines.2.2⟩
  | indent hblanks hothers =>
      rw [List.forall_mem_append, List.forall_mem_cons] at hlines
      rw [List.forall_mem_append, List.forall_mem_cons]
      exact ⟨hlines.1, isPlainLine_indent hblanks hothers hlines.2.1, hlines.2.2⟩

/-- Any number of changes keeps what the lines say, and that they can be read back. -/
theorem significant_of_changes {lines changed : List (List Char)}
    (h : Relation.ReflTransGen LayoutChange lines changed)
    (hlines : ∀ line ∈ lines, IsPlainLine line) :
    significant changed = significant lines ∧ ∀ line ∈ changed, IsPlainLine line := by
  induction h with
  | refl => exact ⟨rfl, hlines⟩
  | tail _ hchange ih =>
      obtain ⟨hsame, hplain⟩ := ih
      exact ⟨(significant_of_change hchange).trans hsame, isPlainLine_of_change hchange hplain⟩

theorem lines_append_feed {line : List Char} (hline : '\n' ∉ line) (text : List Char) :
    Text.lines (line ++ '\n' :: text) = Text.dropFinalReturn line :: Text.lines text := by
  rw [Text.lines, Text.pieces_append, Text.pieces_of_notMem hline,
    Text.endedLines_append _ _ (Text.pieces_ne_nil '\n' text)]
  rfl

theorem saysNothing_dropFinalReturn {line : List Char} (h : SaysNothing line) :
    SaysNothing (Text.dropFinalReturn line) := by
  unfold Text.dropFinalReturn
  split
  · next hlast =>
      obtain ⟨init, rfl⟩ := List.getLast?_eq_some_iff.mp hlast
      rw [List.dropLast_concat]
      intro c hc
      apply h
      rw [Text.trimStart, List.dropWhile_append]
      split
      · next hempty =>
          rw [Text.trimStart, List.isEmpty_iff.mp hempty] at hc
          cases hc
      · rw [List.head?_append]
        rw [Text.trimStart, Option.mem_def] at hc
        rw [hc]
        rfl
  · exact h

/-- The lines of a written text say what the lines say that it was written with. -/
theorem significant_lines {lines : List (List Char)} {text : List Char}
    (h : IsWritten lines text) (hlines : ∀ line ∈ lines, IsPlainLine line) :
    significant (Text.lines text) = significant lines := by
  induction h with
  | nil => rfl
  | last line =>
      have hline := (hlines line List.mem_cons_self).newline
      rw [Text.lines, Text.pieces_of_notMem hline, Text.endedLines]
      split
      · next hempty =>
          have hquiet : SaysNothing line := by
            rw [List.isEmpty_iff.mp hempty]
            intro c hc
            cases hc
          exact (significant_quiet hquiet.classify []).symm
      · rfl
  | @feed line next text rest _ ih =>
      rw [List.forall_mem_cons] at hlines
      have hrest := ih hlines.2
      rw [lines_append_feed hlines.1.newline]
      by_cases hfinal : line.getLast? = some '\r'
      · have hquiet := hlines.1.final hfinal
        rw [significant_quiet (saysNothing_dropFinalReturn hquiet).classify,
          significant_quiet hquiet.classify, hrest]
      · rw [Text.dropFinalReturn, if_neg hfinal, ← List.singleton_append, significant_append, hrest,
          ← significant_append, List.singleton_append]
  | @returnFeed line next text rest _ ih =>
      rw [List.forall_mem_cons] at hlines
      have hrest := ih hlines.2
      have hnewline : '\n' ∉ line ++ ['\r'] := by simp [hlines.1.newline]
      have hdrop : Text.dropFinalReturn (line ++ ['\r']) = line := by
        simp [Text.dropFinalReturn]
      have htext : line ++ '\r' :: '\n' :: text = line ++ ['\r'] ++ '\n' :: text := by simp
      rw [htext, lines_append_feed hnewline, hdrop, ← List.singleton_append, significant_append,
        hrest, ← significant_append, List.singleton_append]

theorem head?_of_isWritten {lines : List (List Char)} {text : List Char}
    (h : IsWritten lines text) (hlines : ∀ line ∈ lines, IsPlainLine line) :
    text.head? ≠ some '\ufeff' := by
  have hline {line : List Char} (hplain : IsPlainLine line) : line.head? ≠ some '\ufeff' := by
    intro hhead
    apply hplain.mark
    rw [Text.trimStart_of_head, hhead]
    intro c hc
    cases hhead.symm.trans hc
    decide
  cases h with
  | nil => simp
  | last => exact hline (hlines _ List.mem_cons_self)
  | @feed line _ _ _ _ =>
      have hhead := hline (hlines line List.mem_cons_self)
      cases line with
      | nil => simp
      | cons c more => exact hhead
  | @returnFeed line _ _ _ _ =>
      have hhead := hline (hlines line List.mem_cons_self)
      cases line with
      | nil => simp
      | cons c more => exact hhead

theorem isWritten_pieces (text : List Char) : IsWritten (Text.pieces '\n' text) text := by
  have hwritten (lines : List (List Char)) : IsWritten lines (Text.joined ['\n'] lines) := by
    induction lines with
    | nil => exact .nil
    | cons line rest ih =>
        cases rest with
        | nil => exact .last line
        | cons next rest =>
            rw [Text.joined_cons _ _ (List.cons_ne_nil _ _), List.append_assoc]
            exact .feed ih
  have h := hwritten (Text.pieces '\n' text)
  rwa [Text.joined_pieces] at h

theorem isPlainLine_pieces {text : List Char}
    (htext : ∀ c ∈ text, c ≠ '\r' ∧ c ≠ '\ufeff') :
    ∀ line ∈ Text.pieces '\n' text, IsPlainLine line := by
  intro line hline
  have hmem : ∀ c ∈ line, c ∈ text := fun c => Text.mem_of_mem_pieces hline
  refine ⟨Text.notMem_of_mem_pieces hline, ?_, ?_⟩
  · intro hlast
    exact absurd rfl (htext _ (hmem _ (List.mem_of_getLast? hlast))).1
  · intro hhead
    have htrimmed := (List.dropWhile_sublist Text.isBlank).subset (List.mem_of_head? hhead)
    exact (htext _ (hmem _ htrimmed)).2 rfl

end Writing

namespace Draft

/-- A draft without the numbers of its lines. -/
def unnumbered : Draft → Draft
  | .untitled pending => .untitled pending
  | .titled feature annotations scenarios pending =>
      .titled feature annotations (scenarios.map Scenario.unnumbered) pending

theorem unnumbered_addLine (draft : Draft) (number : Nat) (line : Line) :
    (draft.addLine number line).map unnumbered = draft.unnumbered.addLine 0 line := by
  cases line with
  | blank | comment => rfl
  | tag key raw =>
      simp only [addLine]
      cases AnnotationValue.coerce raw with
      | error error => rfl
      | ok value => cases draft <;> rfl
  | feature name => cases draft <;> rfl
  | scenario name => cases draft <;> rfl
  | text text =>
      cases draft with
      | untitled pending => rfl
      | titled feature annotations scenarios pending =>
          cases scenarios with
          | nil => rfl
          | cons scenario earlier =>
              simp only [addLine, addStep, unnumbered, List.map_cons]
              split
              · simp [Except.map, unnumbered, Scenario.unnumbered]
              · rfl

theorem unnumbered_finish (draft : Draft) :
    draft.finish.map Document.unnumbered = draft.unnumbered.finish := by
  cases draft with
  | untitled pending => rfl
  | titled feature annotations scenarios pending =>
      simp only [finish, unnumbered]
      split
      · simp [Except.map, Document.unnumbered]
      · rfl

/-- The draft after some lines, all of which say something. Their numbers are left out. -/
def addSignificant (draft : Draft) (lines : List (Except ParseError.Cause Line)) :
    Except ParseError.Cause Draft :=
  lines.foldlM (fun draft line => line.bind (draft.addLine 0)) draft

/-- Reading lines comes to reading those that say something. -/
theorem unnumbered_addLines (draft : Draft) (number : Nat) (raws : List (List Char)) :
    ((draft.addLines number raws).map unnumbered).mapError ParseError.cause =
      draft.unnumbered.addSignificant (significant raws) := by
  induction raws generalizing draft number with
  | nil => rfl
  | cons raw rest ih =>
      rw [addLines]
      cases hline : Line.classify raw with
      | error cause => simp [significant, hline, Except.toOption, addSignificant]; rfl
      | ok line =>
          cases hquiet : line.isSignificant with
          | false =>
              rw [significant_quiet ⟨line, hline, hquiet⟩, ← ih draft (number + 1)]
              simp only [Except.mapError, bind, Except.bind,
                addLine_of_not_significant hquiet draft number]
          | true =>
              have hstep := unnumbered_addLine draft number line
              have hcons : significant (raw :: rest) = .ok line :: significant rest := by
                simp [significant, hline, Except.toOption, hquiet]
              rw [hcons, addSignificant, List.foldlM_cons]
              simp only [Except.mapError, bind, Except.bind, ← hstep]
              cases draft.addLine number line with
              | error cause => rfl
              | ok next => exact ih next (number + 1)

end Draft

namespace Document

/-- What became of a text, without the numbers of its lines. -/
def unnumberedOutcome (outcome : Except ParseError Document) : Except ParseError.Cause Document :=
  (outcome.map unnumbered).mapError ParseError.cause

theorem unnumberedOutcome_ofLines (raws : List (List Char)) :
    unnumberedOutcome (ofLines raws) =
      (Draft.start.addSignificant (significant raws)).bind Draft.finish := by
  have hlines := Draft.unnumbered_addLines Draft.start 1 raws
  rw [show Draft.start.unnumbered = Draft.start from rfl] at hlines
  rw [← hlines, unnumberedOutcome, ofLines]
  cases Draft.start.addLines 1 raws with
  | error error => rfl
  | ok draft =>
      have hfinish := Draft.unnumbered_finish draft
      simp only [bind, Except.bind, Except.map, Except.mapError, ← hfinish]
      cases draft.finish <;> rfl

theorem withoutMark_of_head {text : List Char} (h : text.head? ≠ some '\ufeff') :
    withoutMark text = text := by
  unfold withoutMark
  split
  · exact absurd rfl h
  · rfl

/-- A text says the same in any layout. -/
theorem unnumberedOutcome_parse_relaid {mark body relaid : List Char}
    (hmark : mark = [] ∨ mark = ['\ufeff']) (hbody : ∀ c ∈ body, c ≠ '\r' ∧ c ≠ '\ufeff')
    (h : Relaid body relaid) :
    unnumberedOutcome (parse (String.ofList (mark ++ relaid))) =
      unnumberedOutcome (parse (String.ofList (mark ++ body))) := by
  obtain ⟨lines, hchanges, hwritten⟩ := h
  obtain ⟨hsame, hplain⟩ := significant_of_changes hchanges (isPlainLine_pieces hbody)
  have hwithout {text : List Char} (hhead : text.head? ≠ some '\ufeff') :
      withoutMark (mark ++ text) = text := by
    rcases hmark with rfl | rfl
    · exact withoutMark_of_head hhead
    · rfl
  have hbodyHead : body.head? ≠ some '\ufeff' := by
    intro hhead
    exact (hbody _ (List.mem_of_head? hhead)).2 rfl
  have horiginal : significant (Text.lines body) = significant (Text.pieces '\n' body) :=
    significant_lines (isWritten_pieces body) (isPlainLine_pieces hbody)
  rw [parse, parse, String.toList_ofList, String.toList_ofList,
    hwithout (head?_of_isWritten hwritten hplain), hwithout hbodyHead, unnumberedOutcome_ofLines,
    unnumberedOutcome_ofLines, significant_lines hwritten hplain, hsame, horiginal]

end Document

end FeatureCompiler
