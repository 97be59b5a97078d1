import FeatureCompiler.Proofs.Feature.Grammar
import FeatureCompiler.Proofs.Text.Lines

/-!
Feature files in parts: a preamble with the feature header, and blocks with one scenario each. What
a block says does not depend on what stands before it, the numbers of its steps apart. So a file of
several blocks is read exactly if each block is read after the preamble alone, and its scenarios
are those of the blocks.
-/

namespace FeatureCompiler

/-- A line that says nothing. -/
def IsQuietLine (raw : List Char) : Prop :=
  ∃ line, Line.classify raw = .ok line ∧ line.isSignificant = false

/-- An annotation, which need not be well formed, or a line that says nothing. -/
def IsTagLine (raw : List Char) : Prop :=
  ∀ line, Line.classify raw = .ok line →
    (∃ key value, line = .tag key value) ∨ line.isSignificant = false

/-- A line of text, or one that says nothing. -/
def IsStepLine (raw : List Char) : Prop :=
  ∃ line, Line.classify raw = .ok line ∧ ((∃ text, line = .text text) ∨ line.isSignificant = false)

/-- Whole lines with the feature header and the annotations of the document. -/
def IsPreamble (text : String) : Prop :=
  Text.IsEnded text.toList ∧
    ∃ above header name below,
      Text.lines (Document.withoutMark text.toList) = above ++ header :: below ∧
      (∀ raw ∈ above, IsTagLine raw) ∧ Line.classify header = .ok (.feature name) ∧
      ∀ raw ∈ below, IsQuietLine raw

/-- Whole lines with one scenario: its annotations, its header and its steps. -/
def IsScenarioBlock (text : String) : Prop :=
  Text.IsEnded text.toList ∧
    ∃ above header name below,
      Text.lines text.toList = above ++ header :: below ∧
      (∀ raw ∈ above, IsTagLine raw) ∧ Line.classify header = .ok (.scenario name) ∧
      ∀ raw ∈ below, IsStepLine raw

/-- A scenario without the numbers of its lines. -/
def Scenario.unnumbered (scenario : Scenario) : Scenario :=
  { scenario with steps := scenario.steps.map fun step => ⟨step.text, 0⟩ }

namespace Draft

theorem addLines_append_eq_ok_iff {draft final : Draft} {number : Nat}
    {first second : List (List Char)} :
    draft.addLines number (first ++ second) = .ok final ↔
      ∃ next, draft.addLines number first = .ok next ∧
        next.addLines (number + first.length) second = .ok final := by
  induction first generalizing draft number with
  | nil => simp [addLines]
  | cons raw rest ih =>
      simp only [List.cons_append, addLines_cons_eq_ok_iff, ih, List.length_cons]
      have hnumber : number + (rest.length + 1) = number + 1 + rest.length := by omega
      rw [hnumber]
      constructor
      · rintro ⟨line, step, hline, hstep, next, hnext, hfinal⟩
        exact ⟨next, ⟨line, step, hline, hstep, hnext⟩, hfinal⟩
      · rintro ⟨next, ⟨line, step, hline, hstep, hnext⟩, hfinal⟩
        exact ⟨line, step, hline, hstep, next, hnext, hfinal⟩

theorem addLines_of_quiet {raws : List (List Char)} (hraws : ∀ raw ∈ raws, IsQuietLine raw)
    (draft : Draft) (number : Nat) : draft.addLines number raws = .ok draft := by
  induction raws generalizing number with
  | nil => rfl
  | cons raw rest ih =>
      obtain ⟨line, hline, hquiet⟩ := hraws raw (by simp)
      rw [addLines_cons_eq_ok_iff]
      exact ⟨line, draft, hline, addLine_of_not_significant hquiet draft number,
        ih (fun other hother => hraws other (by simp [hother])) (number + 1)⟩

def addAnnotations (draft : Draft) (entries : List (String × AnnotationValue)) : Draft :=
  entries.foldl (fun draft entry => draft.addAnnotation entry.1 entry.2) draft

theorem addAnnotations_untitled (pending : AnnotationSet)
    (entries : List (String × AnnotationValue)) :
    (untitled pending).addAnnotations entries = untitled (pending.insertAll entries) := by
  induction entries generalizing pending with
  | nil => rfl
  | cons entry rest ih => exact ih (pending.insert entry.1 entry.2)

theorem addAnnotations_titled (feature : String) (annotations pending : AnnotationSet)
    (scenarios : List Scenario) (entries : List (String × AnnotationValue)) :
    (titled feature annotations scenarios pending).addAnnotations entries =
      titled feature annotations scenarios (pending.insertAll entries) := by
  induction entries generalizing pending with
  | nil => rfl
  | cons entry rest ih => exact ih (pending.insert entry.1 entry.2)

/-- No draft can go on with these lines. -/
def Refused (raws : List (List Char)) : Prop :=
  ∀ (draft final : Draft) (number : Nat), draft.addLines number raws ≠ .ok final

theorem Refused.append_left {second : List (List Char)} (hsecond : Refused second)
    (first : List (List Char)) : Refused (first ++ second) := by
  intro draft final number h
  obtain ⟨next, -, hfinal⟩ := addLines_append_eq_ok_iff.mp h
  exact hsecond _ _ _ hfinal

theorem Refused.append_right {first : List (List Char)} (hfirst : Refused first)
    (second : List (List Char)) : Refused (first ++ second) := by
  intro draft final number h
  obtain ⟨next, hnext, -⟩ := addLines_append_eq_ok_iff.mp h
  exact hfirst _ _ _ hnext

theorem Refused.flatten {parts : List (List (List Char))} {raws : List (List Char)}
    (hraws : Refused raws) (hmember : raws ∈ parts) : Refused parts.flatten := by
  obtain ⟨earlier, later, rfl⟩ := List.append_of_mem hmember
  rw [List.flatten_append, List.flatten_cons]
  exact (hraws.append_right later.flatten).append_left earlier.flatten

/-- Every draft goes on with these lines, which are just these annotations. -/
def ReadsTags (raws : List (List Char)) (entries : List (String × AnnotationValue)) : Prop :=
  ∀ (draft : Draft) (number : Nat), draft.addLines number raws = .ok (draft.addAnnotations entries)

theorem tagLine_reads_or_refused {raw : List Char} (hraw : IsTagLine raw) :
    (∃ entries, ReadsTags [raw] entries) ∨ Refused [raw] := by
  have hsingle {draft final : Draft} {number : Nat} :
      draft.addLines number [raw] = .ok final ↔
        ∃ line, Line.classify raw = .ok line ∧ draft.addLine number line = .ok final := by
    rw [addLines_cons_eq_ok_iff]
    simp [addLines]
  cases hline : Line.classify raw with
  | error cause =>
      right
      intro draft final number h
      simp [hsingle, hline] at h
  | ok line =>
      rcases hraw line hline with ⟨key, value, rfl⟩ | hquiet
      · cases hvalue : AnnotationValue.coerce value with
        | error error =>
            right
            intro draft final number h
            simp [hsingle, hline, addLine, hvalue] at h
        | ok coerced =>
            left
            refine ⟨[(key, coerced)], fun draft number => hsingle.mpr ⟨_, hline, ?_⟩⟩
            simp [addLine, hvalue, addAnnotations]
      · left
        exact ⟨[], fun draft number =>
          hsingle.mpr ⟨line, hline, addLine_of_not_significant hquiet draft number⟩⟩

/-- Annotations are the same entries wherever they stand, or are refused wherever they stand. -/
theorem tagLines_read_or_refused {raws : List (List Char)} (hraws : ∀ raw ∈ raws, IsTagLine raw) :
    (∃ entries, ReadsTags raws entries) ∨ Refused raws := by
  induction raws with
  | nil => exact .inl ⟨[], fun draft number => rfl⟩
  | cons raw rest ih =>
      rw [← List.singleton_append]
      rcases tagLine_reads_or_refused (hraws raw (by simp)) with ⟨entries, hraw⟩ | hraw
      · rcases ih fun other hother => hraws other (by simp [hother]) with ⟨more, hrest⟩ | hrest
        · left
          refine ⟨entries ++ more, fun draft number => ?_⟩
          rw [addLines_append_eq_ok_iff, addAnnotations, List.foldl_append]
          exact ⟨_, hraw draft number, hrest _ _⟩
        · exact .inr (hrest.append_left [raw])
      · exact .inr (hraw.append_right rest)

theorem addLines_of_steps {raws : List (List Char)} (hraws : ∀ raw ∈ raws, IsStepLine raw)
    (feature : String) (annotations : AnnotationSet) (scenario : Scenario)
    (earlier : List Scenario) (number : Nat) :
    (titled feature annotations (scenario :: earlier) ∅).addLines number raws =
      .ok (titled feature annotations
        ({ scenario with steps := scenario.steps ++ writtenSteps raws number } :: earlier) ∅) := by
  induction raws generalizing scenario number with
  | nil => simp [addLines, writtenSteps]
  | cons raw rest ih =>
      have hrest (scenario : Scenario) := ih (fun other hother => hraws other (by simp [hother]))
        scenario (number + 1)
      obtain ⟨line, hline, ⟨text, rfl⟩ | hquiet⟩ := hraws raw (by simp)
      · have htext := Line.text_of_classify hline
        have hsteps : writtenSteps (raw :: rest) number =
            ⟨text, number⟩ :: writtenSteps rest (number + 1) := by
          simp [writtenSteps, writtenStep?, hline, htext]
        rw [addLines_cons_eq_ok_iff, hsteps]
        refine ⟨_, _, hline, rfl, (hrest _).trans ?_⟩
        simp
      · have hsteps : writtenSteps (raw :: rest) number = writtenSteps rest (number + 1) := by
          cases line with
          | blank | comment => simp [writtenSteps, writtenStep?, hline]
          | tag | feature | scenario | text => cases hquiet
        rw [addLines_cons_eq_ok_iff, hsteps]
        exact ⟨_, _, hline, addLine_of_not_significant hquiet _ number, hrest scenario⟩

end Draft

/-- The numbers of some lines do not show in the texts of their steps. -/
theorem map_text_writtenSteps (raws : List (List Char)) (number other : Nat) :
    (writtenSteps raws number).map Step.text = (writtenSteps raws other).map Step.text := by
  have htext (number : Nat) : (writtenSteps raws number).map Step.text =
      raws.filterMap fun raw => (writtenStep? (raw, 0)).map Step.text := by
    rw [writtenSteps, List.map_filterMap]
    conv_rhs => rw [← List.zipIdx_map_fst number raws, List.filterMap_map]
    apply List.filterMap_congr
    intro raw _
    simp only [writtenStep?, Function.comp_apply]
    cases Line.classify raw.1 with
    | error cause => rfl
    | ok line => cases line <;> rfl
  rw [htext number, htext other]

theorem Scenario.unnumbered_eq {name : String} {annotations : AnnotationSet}
    {first second : List Step} (h : first.map Step.text = second.map Step.text) :
    (Scenario.mk name annotations first).unnumbered =
      (Scenario.mk name annotations second).unnumbered := by
  have hsteps (steps : List Step) : (steps.map fun step => (⟨step.text, 0⟩ : Step)) =
      (steps.map Step.text).map fun text => ⟨text, 0⟩ := by
    rw [List.map_map]
    rfl
  simp only [Scenario.unnumbered, hsteps, h]

namespace Draft

/-- After any header or step the lines are just this scenario, the numbers of its lines apart. -/
def ReadsScenario (raws : List (List Char)) (scenario : Scenario) : Prop :=
  ∀ (feature : String) (annotations : AnnotationSet) (earlier : List Scenario) (number : Nat),
    ∃ read : Scenario, read.unnumbered = scenario ∧
      (titled feature annotations earlier ∅).addLines number raws =
        .ok (titled feature annotations (read :: earlier) ∅)

theorem block_reads_or_refused {text : String} (htext : IsScenarioBlock text) :
    (∃ scenario, ReadsScenario (Text.lines text.toList) scenario) ∨
      Refused (Text.lines text.toList) := by
  obtain ⟨-, above, header, name, below, hlines, habove, hheader, hbelow⟩ := htext
  rw [hlines]
  rcases tagLines_read_or_refused habove with ⟨entries, htags⟩ | hrefused
  · left
    refine ⟨(Scenario.mk name (.ofEntries entries) (writtenSteps below 0)).unnumbered, ?_⟩
    intro feature annotations earlier number
    refine ⟨⟨name, .ofEntries entries, writtenSteps below (number + above.length + 1)⟩,
      Scenario.unnumbered_eq (map_text_writtenSteps below _ _), ?_⟩
    rw [addLines_append_eq_ok_iff]
    refine ⟨_, htags _ number, ?_⟩
    rw [addAnnotations_titled, addLines_cons_eq_ok_iff]
    exact ⟨_, _, hheader, rfl, addLines_of_steps hbelow _ _ _ _ _⟩
  · exact .inr (hrefused.append_right _)

theorem blocks_read_or_refused {blocks : List String}
    (hblocks : ∀ block ∈ blocks, IsScenarioBlock block) :
    (∃ scenarios, List.Forall₂ ReadsScenario
      (blocks.map fun block => Text.lines block.toList) scenarios) ∨
      ∃ block ∈ blocks, Refused (Text.lines block.toList) := by
  induction blocks with
  | nil => exact .inl ⟨[], .nil⟩
  | cons block rest ih =>
      rcases block_reads_or_refused (hblocks block (by simp)) with ⟨scenario, hread⟩ | hrefused
      · rcases ih fun other hother => hblocks other (by simp [hother]) with
          ⟨scenarios, hreads⟩ | ⟨other, hother, hrefused⟩
        · exact .inl ⟨scenario :: scenarios, .cons hread hreads⟩
        · exact .inr ⟨other, by simp [hother], hrefused⟩
      · exact .inr ⟨block, by simp, hrefused⟩

theorem preamble_reads_or_refused {text : String} (htext : IsPreamble text) :
    (∃ feature annotations,
      start.addLines 1 (Text.lines (Document.withoutMark text.toList)) =
        .ok (titled feature annotations [] ∅)) ∨
      Refused (Text.lines (Document.withoutMark text.toList)) := by
  obtain ⟨-, above, header, name, below, hlines, habove, hheader, hbelow⟩ := htext
  rw [hlines]
  rcases tagLines_read_or_refused habove with ⟨entries, htags⟩ | hrefused
  · left
    refine ⟨name, .ofEntries entries, ?_⟩
    rw [addLines_append_eq_ok_iff]
    refine ⟨_, htags _ 1, ?_⟩
    rw [start, addAnnotations_untitled, addLines_cons_eq_ok_iff]
    exact ⟨_, _, hheader, rfl, addLines_of_quiet hbelow _ _⟩
  · exact .inr (hrefused.append_right _)

/-- Blocks one after the other, at whatever line they start, add their scenarios in order. -/
theorem addLines_of_blocks {blocks : List (List (List Char))} {scenarios : List Scenario}
    (hblocks : List.Forall₂ ReadsScenario blocks scenarios) (feature : String)
    (annotations : AnnotationSet) (earlier : List Scenario) (number : Nat) :
    ∃ read : List Scenario, read.map Scenario.unnumbered = scenarios ∧
      (titled feature annotations earlier ∅).addLines number blocks.flatten =
        .ok (titled feature annotations (read.reverse ++ earlier) ∅) := by
  induction hblocks generalizing earlier number with
  | nil => exact ⟨[], rfl, rfl⟩
  | @cons block scenario blocks scenarios hblock _ ih =>
      obtain ⟨first, hfirst, hadded⟩ := hblock feature annotations earlier number
      obtain ⟨more, hmore, hrest⟩ := ih (first :: earlier) (number + block.length)
      refine ⟨first :: more, by rw [List.map_cons, hfirst, hmore], ?_⟩
      rw [List.flatten_cons, addLines_append_eq_ok_iff]
      refine ⟨_, hadded, hrest.trans ?_⟩
      simp

end Draft

namespace Document

theorem withoutMark_append {first : List Char} (hfirst : Text.IsEnded first)
    (second : List Char) :
    withoutMark (first ++ second) = withoutMark first ++ second := by
  cases first with
  | nil => cases hfirst
  | cons c rest =>
      rw [List.cons_append]
      unfold withoutMark
      split
      · next h =>
          cases h
          rfl
      · next h =>
          split
          · next hmark =>
              cases hmark
              exact absurd rfl (h _)
          · rfl

theorem isEnded_withoutMark {text : List Char} (htext : Text.IsEnded text) :
    Text.IsEnded (withoutMark text) := by
  unfold withoutMark
  split
  · next rest =>
      cases rest with
      | nil => cases htext
      | cons c rest => exact htext
  · exact htext

theorem lines_of_blocks {preamble : String} {blocks : List String}
    (hpreamble : Text.IsEnded preamble.toList)
    (hblocks : ∀ block ∈ blocks, Text.IsEnded block.toList) :
    Text.lines (withoutMark (preamble ++ String.join blocks).toList) =
      Text.lines (withoutMark preamble.toList) ++
        (blocks.map fun block => Text.lines block.toList).flatten := by
  have hjoin : Text.lines (blocks.flatMap String.toList) =
      (blocks.map fun block => Text.lines block.toList).flatten := by
    induction blocks with
    | nil => rfl
    | cons block rest ih =>
        rw [List.flatMap_cons, Text.lines_append (hblocks block (by simp)), List.map_cons,
          List.flatten_cons, ih fun other hother => hblocks other (by simp [hother])]
  rw [String.toList_append, String.toList_join, withoutMark_append hpreamble,
    Text.lines_append (isEnded_withoutMark hpreamble), hjoin]

end Document

end FeatureCompiler
