import FeatureCompiler.Feature.Parse
import FeatureCompiler.Proofs.Annotation.Insertion
import FeatureCompiler.Proofs.Outcome
import Mathlib.Data.List.Forall2

/-!
The language of annotated feature files as a grammar. Blank lines and comments aside, a file is a
run of annotations, the feature header, and then scenarios, each a run of annotations, its header
and its steps. The rules say at once which document a file stands for, so the line by line reader
can be held to them: it accepts exactly the files that the grammar derives, with that document.
-/

namespace FeatureCompiler

/-- Whether a line says anything. -/
def Line.isSignificant : Line → Bool
  | .blank | .comment => false
  | _ => true

/-- The lines that say something, each with its number in the file. The first line of all has the
given number. -/
def significantLines (lines : List Line) (number : Nat) : List (Line × Nat) :=
  (lines.zipIdx number).filter fun line => line.1.isSignificant

namespace Grammar

/-- A run of annotations, with the entries that they make. All their texts have to be values. -/
inductive Tags : List (Line × Nat) → List (String × AnnotationValue) → Prop where
  | nil : Tags [] []
  | cons {key : String} {raw : List Char} {value : AnnotationValue} {number : Nat}
      {lines : List (Line × Nat)} {entries : List (String × AnnotationValue)} :
      AnnotationValue.coerce raw = .ok value → Tags lines entries →
        Tags ((.tag key raw, number) :: lines) ((key, value) :: entries)

/-- A run of steps. -/
inductive Steps : List (Line × Nat) → List Step → Prop where
  | nil : Steps [] []
  | cons {text : String} {number : Nat} {lines : List (Line × Nat)} {steps : List Step} :
      Steps lines steps → Steps ((.text text, number) :: lines) (⟨text, number⟩ :: steps)

/-- A run of scenarios. The annotations of each stand right before its header. -/
inductive Scenarios : List (Line × Nat) → List Scenario → Prop where
  | nil : Scenarios [] []
  | cons {tags texts rest : List (Line × Nat)} {entries : List (String × AnnotationValue)}
      {name : String} {number : Nat} {annotations : AnnotationSet} {steps : List Step}
      {scenarios : List Scenario} :
      Tags tags entries → annotations.Collects entries → Steps texts steps →
        Scenarios rest scenarios →
        Scenarios (tags ++ (.scenario name, number) :: (texts ++ rest))
          (⟨name, annotations, steps⟩ :: scenarios)

/-- A whole file. -/
inductive FeatureFile : List (Line × Nat) → Document → Prop where
  | intro {tags rest : List (Line × Nat)} {entries : List (String × AnnotationValue)}
      {name : String} {number : Nat} {annotations : AnnotationSet} {scenarios : List Scenario} :
      Tags tags entries → annotations.Collects entries → Scenarios rest scenarios →
        FeatureFile (tags ++ (.feature name, number) :: rest) ⟨name, annotations, scenarios⟩

/-- What a file can hold after some annotations that wait for the header of a scenario. Nothing
more can only follow if none are waiting. -/
def ScenariosAfter (pending : AnnotationSet) (lines : List (Line × Nat))
    (scenarios : List Scenario) : Prop :=
  (lines = [] ∧ scenarios = [] ∧ pending = ∅) ∨
    ∃ tags entries name number texts steps rest others,
      Tags tags entries ∧ Steps texts steps ∧ Scenarios rest others ∧
        lines = tags ++ (.scenario name, number) :: (texts ++ rest) ∧
        scenarios = ⟨name, pending.insertAll entries, steps⟩ :: others

theorem scenariosAfter_empty_iff {lines : List (Line × Nat)} {scenarios : List Scenario} :
    ScenariosAfter ∅ lines scenarios ↔ Scenarios lines scenarios := by
  constructor
  · rintro (⟨rfl, rfl, -⟩ | ⟨tags, entries, name, number, texts, steps, rest, others, htags,
      hsteps, hrest, rfl, rfl⟩)
    · exact .nil
    · exact .cons htags (AnnotationSet.ofEntries_collects entries) hsteps hrest
  · intro h
    cases h with
    | nil => exact .inl ⟨rfl, rfl, rfl⟩
    | cons htags hannotations hsteps hrest =>
        rw [AnnotationSet.collects_iff] at hannotations
        subst hannotations
        exact .inr ⟨_, _, _, _, _, _, _, _, htags, hsteps, hrest, rfl, rfl⟩

theorem insert_ne_empty (set : AnnotationSet) (key : String) (value : AnnotationValue) :
    set.insert key value ≠ ∅ := by
  intro h
  have hkey : (set.insert key value).get? key = none := by rw [h]; rfl
  simp [AnnotationSet.get?_insert] at hkey

theorem scenariosAfter_tag_iff {pending : AnnotationSet} {key : String} {raw : List Char}
    {number : Nat} {lines : List (Line × Nat)} {scenarios : List Scenario} :
    ScenariosAfter pending ((.tag key raw, number) :: lines) scenarios ↔
      ∃ value, AnnotationValue.coerce raw = .ok value ∧
        ScenariosAfter (pending.insert key value) lines scenarios := by
  constructor
  · rintro (⟨hnil, -, -⟩ | ⟨tags, entries, name, header, texts, steps, rest, others, htags,
      hsteps, hrest, hlines, rfl⟩)
    · cases hnil
    · cases htags with
      | nil => cases hlines
      | cons hvalue htags =>
          cases hlines
          exact ⟨_, hvalue, .inr ⟨_, _, _, _, _, _, _, _, htags, hsteps, hrest, rfl, rfl⟩⟩
  · rintro ⟨value, hvalue, ⟨-, -, hempty⟩ | ⟨tags, entries, name, header, texts, steps, rest,
      others, htags, hsteps, hrest, rfl, rfl⟩⟩
    · exact absurd hempty (insert_ne_empty pending key value)
    · exact .inr ⟨_, _, _, _, _, _, _, _, .cons hvalue htags, hsteps, hrest, rfl, rfl⟩

theorem scenariosAfter_scenario_iff {pending : AnnotationSet} {name : String} {number : Nat}
    {lines : List (Line × Nat)} {scenarios : List Scenario} :
    ScenariosAfter pending ((.scenario name, number) :: lines) scenarios ↔
      ∃ texts steps rest others, lines = texts ++ rest ∧ Steps texts steps ∧
        ScenariosAfter ∅ rest others ∧ scenarios = ⟨name, pending, steps⟩ :: others := by
  constructor
  · rintro (⟨hnil, -, -⟩ | ⟨tags, entries, name, header, texts, steps, rest, others, htags,
      hsteps, hrest, hlines, rfl⟩)
    · cases hnil
    · cases htags with
      | nil =>
          cases hlines
          exact ⟨texts, steps, rest, others, rfl, hsteps, scenariosAfter_empty_iff.mpr hrest, rfl⟩
      | cons => cases hlines
  · rintro ⟨texts, steps, rest, others, rfl, hsteps, hrest, rfl⟩
    exact .inr ⟨_, _, _, _, _, _, _, _, .nil, hsteps, scenariosAfter_empty_iff.mp hrest, rfl, rfl⟩

/-- Neither a feature header nor a step can be the next line where scenarios stand. -/
theorem not_scenariosAfter_cons {pending : AnnotationSet} {line : Line} {number : Nat}
    {lines : List (Line × Nat)} {scenarios : List Scenario}
    (htag : ∀ key raw, line ≠ .tag key raw) (hheader : ∀ name, line ≠ .scenario name) :
    ¬ ScenariosAfter pending ((line, number) :: lines) scenarios := by
  rintro (⟨hnil, -, -⟩ | ⟨tags, entries, name, header, texts, steps, rest, others, htags,
    hsteps, hrest, hlines, rfl⟩)
  · cases hnil
  · cases htags with
    | nil =>
        simp only [List.nil_append, List.cons.injEq, Prod.mk.injEq] at hlines
        exact hheader name hlines.1.1
    | @cons key raw =>
        simp only [List.cons_append, List.cons.injEq, Prod.mk.injEq] at hlines
        exact htag key raw hlines.1.1

end Grammar

open Grammar

namespace Draft

/-- What may follow a draft, and the document that results. In a scenario that is more of its steps
first, unless annotations are waiting already. -/
def Expects : Draft → List (Line × Nat) → Document → Prop
  | .untitled pending, lines, document =>
      ∃ tags entries name number rest scenarios, Tags tags entries ∧ Scenarios rest scenarios ∧
        lines = tags ++ (.feature name, number) :: rest ∧
        document = ⟨name, pending.insertAll entries, scenarios⟩
  | .titled feature annotations [] pending, lines, document =>
      ∃ scenarios, ScenariosAfter pending lines scenarios ∧
        document = ⟨feature, annotations, scenarios⟩
  | .titled feature annotations (last :: earlier) pending, lines, document =>
      ∃ texts steps rest scenarios, Steps texts steps ∧ (texts ≠ [] → pending = ∅) ∧
        ScenariosAfter pending rest scenarios ∧ lines = texts ++ rest ∧
        document = ⟨feature, annotations,
          earlier.reverse ++ { last with steps := last.steps ++ steps } :: scenarios⟩

theorem expects_start_iff {lines : List (Line × Nat)} {document : Document} :
    start.Expects lines document ↔ FeatureFile lines document := by
  constructor
  · rintro ⟨tags, entries, name, number, rest, scenarios, htags, hrest, rfl, rfl⟩
    exact .intro htags (AnnotationSet.ofEntries_collects entries) hrest
  · rintro ⟨htags, hannotations, hrest⟩
    rw [AnnotationSet.collects_iff] at hannotations
    subst hannotations
    exact ⟨_, _, _, _, _, _, htags, hrest, rfl, rfl⟩

private theorem isEmpty_iff {set : AnnotationSet} : set.entries.isEmpty ↔ set = ∅ := by
  rw [List.isEmpty_iff]
  exact ⟨fun h => AnnotationSet.ext h, fun h => congrArg AnnotationSet.entries h⟩

theorem finish_titled_iff {feature : String} {annotations pending : AnnotationSet}
    {scenarios : List Scenario} {document : Document} :
    finish (.titled feature annotations scenarios pending) = .ok document ↔
      pending = ∅ ∧ document = ⟨feature, annotations, scenarios.reverse⟩ := by
  by_cases hpending : pending = ∅
  · subst hpending
    have hfinish : finish (.titled feature annotations scenarios ∅) =
      .ok ⟨feature, annotations, scenarios.reverse⟩ := rfl
    rw [hfinish, Except.ok.injEq]
    exact ⟨fun h => ⟨rfl, h.symm⟩, fun h => h.2.symm⟩
  · have hfinish : finish (.titled feature annotations scenarios pending) =
      .error .annotationsAtEnd := if_neg (mt isEmpty_iff.mp hpending)
    rw [hfinish]
    exact iff_of_false (by simp) fun h => hpending h.1

theorem expects_nil_iff (draft : Draft) {document : Document} :
    draft.Expects [] document ↔ draft.finish = .ok document := by
  cases draft with
  | untitled pending => simp [Expects, finish]
  | titled feature annotations scenarios pending =>
      rw [finish_titled_iff]
      cases scenarios with
      | nil => simp [Expects, ScenariosAfter, and_comm]
      | cons last earlier =>
          constructor
          · rintro ⟨texts, steps, rest, others, hsteps, -, hrest, hnil, rfl⟩
            obtain ⟨rfl, rfl⟩ := List.append_eq_nil_iff.mp hnil.symm
            cases hsteps
            obtain ⟨-, rfl, rfl⟩ | ⟨_, _, _, _, _, _, _, _, _, _, _, hlines, _⟩ := hrest
            · simp
            · simp at hlines
          · rintro ⟨rfl, rfl⟩
            exact ⟨[], [], [], [], .nil, fun h => absurd rfl h, .inl ⟨rfl, rfl, rfl⟩, rfl, by simp⟩

theorem expects_tag_iff (draft : Draft) {key : String} {raw : List Char} {number : Nat}
    {lines : List (Line × Nat)} {document : Document} :
    draft.Expects ((.tag key raw, number) :: lines) document ↔
      ∃ value, AnnotationValue.coerce raw = .ok value ∧
        (draft.addAnnotation key value).Expects lines document := by
  cases draft with
  | untitled pending =>
      constructor
      · rintro ⟨tags, entries, name, header, rest, scenarios, htags, hrest, hlines, rfl⟩
        cases htags with
        | nil => cases hlines
        | cons hvalue htags =>
            cases hlines
            exact ⟨_, hvalue, _, _, _, _, _, _, htags, hrest, rfl, rfl⟩
      · rintro ⟨value, hvalue, tags, entries, name, header, rest, scenarios, htags, hrest, rfl, rfl⟩
        exact ⟨_, _, _, _, _, _, .cons hvalue htags, hrest, rfl, rfl⟩
  | titled feature annotations scenarios pending =>
      cases scenarios with
      | nil =>
          simp only [Expects, addAnnotation, scenariosAfter_tag_iff]
          constructor
          · rintro ⟨others, ⟨value, hvalue, hrest⟩, rfl⟩
            exact ⟨value, hvalue, others, hrest, rfl⟩
          · rintro ⟨value, hvalue, others, hrest, rfl⟩
            exact ⟨others, ⟨value, hvalue, hrest⟩, rfl⟩
      | cons last earlier =>
          constructor
          · rintro ⟨texts, steps, rest, others, hsteps, -, hrest, hlines, rfl⟩
            cases hsteps with
            | nil =>
                rw [List.nil_append] at hlines
                rw [← hlines, scenariosAfter_tag_iff] at hrest
                obtain ⟨value, hvalue, hrest⟩ := hrest
                exact ⟨value, hvalue, [], [], _, _, .nil, fun h => absurd rfl h, hrest, rfl, rfl⟩
            | cons => cases hlines
          · rintro ⟨value, hvalue, texts, steps, rest, others, hsteps, hpending, hrest, rfl, rfl⟩
            -- The annotation now waits, so no step can come before the next header.
            have htexts : texts = [] := by
              by_contra hne
              exact insert_ne_empty pending key value (hpending hne)
            subst htexts
            cases hsteps
            exact ⟨[], [], _, _, .nil, fun h => absurd rfl h,
              scenariosAfter_tag_iff.mpr ⟨value, hvalue, hrest⟩, rfl, rfl⟩

theorem expects_feature_iff (draft : Draft) {name : String} {number : Nat}
    {lines : List (Line × Nat)} {document : Document} :
    draft.Expects ((.feature name, number) :: lines) document ↔
      ∃ next, draft.addFeature name = .ok next ∧ next.Expects lines document := by
  cases draft with
  | untitled pending =>
      constructor
      · rintro ⟨tags, entries, title, header, rest, scenarios, htags, hrest, hlines, rfl⟩
        cases htags with
        | nil =>
            cases hlines
            exact ⟨_, rfl, scenarios, scenariosAfter_empty_iff.mpr hrest, rfl⟩
        | cons => cases hlines
      · rintro ⟨next, hnext, h⟩
        cases hnext
        obtain ⟨scenarios, hrest, rfl⟩ := h
        exact ⟨_, _, _, _, _, _, .nil, scenariosAfter_empty_iff.mp hrest, rfl, rfl⟩
  | titled feature annotations scenarios pending =>
      have hrefused : ¬ ∃ next, addFeature name (.titled feature annotations scenarios pending) =
          .ok next ∧ next.Expects lines document := by
        rintro ⟨next, hnext, -⟩
        cases hnext
      refine iff_of_false ?_ hrefused
      cases scenarios with
      | nil =>
          rintro ⟨others, hrest, -⟩
          exact not_scenariosAfter_cons (by simp) (by simp) hrest
      | cons last earlier =>
          rintro ⟨texts, steps, rest, others, hsteps, -, hrest, hlines, -⟩
          cases hsteps with
          | nil =>
              rw [List.nil_append] at hlines
              exact not_scenariosAfter_cons (by simp) (by simp) (hlines ▸ hrest)
          | cons => cases hlines

theorem expects_scenario_iff (draft : Draft) {name : String} {number : Nat}
    {lines : List (Line × Nat)} {document : Document} :
    draft.Expects ((.scenario name, number) :: lines) document ↔
      ∃ next, draft.addScenario name = .ok next ∧ next.Expects lines document := by
  cases draft with
  | untitled pending =>
      constructor
      · rintro ⟨tags, entries, title, header, rest, scenarios, htags, hrest, hlines, rfl⟩
        cases htags <;> cases hlines
      · rintro ⟨next, hnext, -⟩
        cases hnext
  | titled feature annotations scenarios pending =>
      constructor
      · intro h
        refine ⟨_, rfl, ?_⟩
        cases scenarios with
        | nil =>
            obtain ⟨others, hscenarios, rfl⟩ := h
            obtain ⟨texts, steps, rest, others, rfl, hsteps, hrest, rfl⟩ :=
              scenariosAfter_scenario_iff.mp hscenarios
            exact ⟨texts, steps, rest, others, hsteps, fun _ => rfl, hrest, rfl, rfl⟩
        | cons last earlier =>
            obtain ⟨_, _, _, _, hsteps, -, hscenarios, hlines, rfl⟩ := h
            cases hsteps with
            | nil =>
                rw [List.nil_append] at hlines
                rw [← hlines] at hscenarios
                obtain ⟨texts, steps, rest, others, rfl, hsteps, hrest, rfl⟩ :=
                  scenariosAfter_scenario_iff.mp hscenarios
                exact ⟨texts, steps, rest, others, hsteps, fun _ => rfl, hrest, rfl, by simp⟩
            | cons => cases hlines
      · rintro ⟨next, hnext, h⟩
        cases hnext
        obtain ⟨texts, steps, rest, others, hsteps, -, hrest, rfl, rfl⟩ := h
        have hscenarios : ScenariosAfter pending ((.scenario name, number) :: (texts ++ rest))
            (⟨name, pending, steps⟩ :: others) :=
          scenariosAfter_scenario_iff.mpr ⟨texts, steps, rest, others, rfl, hsteps, hrest, rfl⟩
        cases scenarios with
        | nil => exact ⟨_, hscenarios, rfl⟩
        | cons last earlier =>
            exact ⟨[], [], _, _, .nil, fun h => absurd rfl h, hscenarios, rfl, by simp⟩

theorem expects_text_iff (draft : Draft) {text : String} {number : Nat}
    {lines : List (Line × Nat)} {document : Document} :
    draft.Expects ((.text text, number) :: lines) document ↔
      ∃ next, draft.addStep ⟨text, number⟩ = .ok next ∧ next.Expects lines document := by
  cases draft with
  | untitled pending =>
      constructor
      · rintro ⟨tags, entries, title, header, rest, scenarios, htags, hrest, hlines, rfl⟩
        cases htags <;> cases hlines
      · rintro ⟨next, hnext, -⟩
        cases hnext
  | titled feature annotations scenarios pending =>
      cases scenarios with
      | nil =>
          constructor
          · rintro ⟨others, hrest, -⟩
            exact absurd hrest (not_scenariosAfter_cons (by simp) (by simp))
          · rintro ⟨next, hnext, -⟩
            cases hnext
      | cons last earlier =>
          constructor
          · rintro ⟨texts, steps, rest, others, hsteps, hpending, hrest, hlines, rfl⟩
            cases hsteps with
            | nil =>
                rw [List.nil_append] at hlines
                exact absurd (hlines ▸ hrest) (not_scenariosAfter_cons (by simp) (by simp))
            | cons hsteps =>
                have hnone := hpending (List.cons_ne_nil _ _)
                subst hnone
                cases hlines
                exact ⟨_, rfl, _, _, _, _, hsteps, fun _ => rfl, hrest, rfl, by simp⟩
          · rintro ⟨next, hnext, h⟩
            by_cases hpending : pending = ∅
            · subst hpending
              cases hnext
              obtain ⟨texts, steps, rest, others, hsteps, -, hrest, rfl, rfl⟩ := h
              exact ⟨_, _, _, _, .cons hsteps, fun _ => rfl, hrest, rfl, by simp⟩
            · have hrefused : addStep ⟨text, number⟩
                  (.titled feature annotations (last :: earlier) pending) =
                .error .annotationsBeforeStep := if_neg (mt isEmpty_iff.mp hpending)
              rw [hrefused] at hnext
              cases hnext

/-- The step of the reader, seen from the grammar: a line is taken exactly if a file can go on with
it, and then what may follow is what may follow the next draft. -/
theorem expects_cons_iff (draft : Draft) {line : Line} {number : Nat} {lines : List (Line × Nat)}
    {document : Document} (hline : line.isSignificant = true) :
    draft.Expects ((line, number) :: lines) document ↔
      ∃ next, draft.addLine number line = .ok next ∧ next.Expects lines document := by
  cases line with
  | blank => cases hline
  | comment => cases hline
  | tag key raw =>
      rw [expects_tag_iff]
      cases hvalue : AnnotationValue.coerce raw with
      | ok value => simp [addLine, hvalue]
      | error error => simp [addLine, hvalue]
  | feature name => exact draft.expects_feature_iff
  | scenario name => exact draft.expects_scenario_iff
  | text text => exact draft.expects_text_iff

theorem addLines_cons_eq_ok_iff {draft final : Draft} {number : Nat} {raw : List Char}
    {raws : List (List Char)} :
    draft.addLines number (raw :: raws) = .ok final ↔
      ∃ line next, Line.classify raw = .ok line ∧ draft.addLine number line = .ok next ∧
        next.addLines (number + 1) raws = .ok final := by
  simp only [addLines, bind_eq_ok_iff, mapError_eq_ok_iff]
  constructor
  · rintro ⟨line, hline, next, hnext, h⟩
    exact ⟨line, next, hline, hnext, h⟩
  · rintro ⟨line, next, hline, hnext, h⟩
    exact ⟨line, hline, next, hnext, h⟩

theorem addLine_of_not_significant {line : Line} (hline : line.isSignificant = false)
    (draft : Draft) (number : Nat) : draft.addLine number line = .ok draft := by
  cases line with
  | blank | comment => rfl
  | tag | feature | scenario | text => cases hline

/-- The run of the reader over any lines, from any draft. Lines that say nothing leave the draft as
it is; all others are steps of the grammar. -/
theorem addLines_finish_iff (draft : Draft) (number : Nat) (raws : List (List Char))
    (document : Document) :
    (∃ final, draft.addLines number raws = .ok final ∧ final.finish = .ok document) ↔
      ∃ lines, List.Forall₂ (fun raw line => Line.classify raw = .ok line) raws lines ∧
        draft.Expects (significantLines lines number) document := by
  induction raws generalizing draft number with
  | nil =>
      constructor
      · rintro ⟨final, hfinal, hfinish⟩
        cases hfinal
        exact ⟨[], .nil, draft.expects_nil_iff.mpr hfinish⟩
      · rintro ⟨lines, hlines, h⟩
        cases hlines
        exact ⟨draft, rfl, draft.expects_nil_iff.mp h⟩
  | cons raw raws ih =>
      have hstep (line : Line) (lines : List Line) :
          draft.Expects (significantLines (line :: lines) number) document ↔
            ∃ next, draft.addLine number line = .ok next ∧
              next.Expects (significantLines lines (number + 1)) document := by
        cases hline : line.isSignificant with
        | true =>
            simp only [significantLines, List.zipIdx_cons, List.filter_cons, hline, if_true]
            exact draft.expects_cons_iff hline
        | false => simp [significantLines, hline, addLine_of_not_significant hline]
      simp only [addLines_cons_eq_ok_iff, List.forall₂_cons_left_iff]
      constructor
      · rintro ⟨final, ⟨line, next, hline, hnext, hfinal⟩, hfinish⟩
        obtain ⟨lines, hlines, h⟩ := (ih next (number + 1)).mp ⟨final, hfinal, hfinish⟩
        exact ⟨line :: lines, ⟨line, lines, hline, hlines, rfl⟩,
          (hstep line lines).mpr ⟨next, hnext, h⟩⟩
      · rintro ⟨_, ⟨line, lines, hline, hlines, rfl⟩, h⟩
        obtain ⟨next, hnext, h⟩ := (hstep line lines).mp h
        obtain ⟨final, hfinal, hfinish⟩ := (ih next (number + 1)).mpr ⟨lines, hlines, h⟩
        exact ⟨final, ⟨line, next, hline, hnext, hfinal⟩, hfinish⟩

end Draft

theorem Document.ofLines_eq_ok_iff {raws : List (List Char)} {document : Document} :
    Document.ofLines raws = .ok document ↔
      ∃ lines, List.Forall₂ (fun raw line => Line.classify raw = .ok line) raws lines ∧
        FeatureFile (significantLines lines 1) document := by
  simp only [Document.ofLines, bind_eq_ok_iff, mapError_eq_ok_iff, ← Draft.expects_start_iff]
  exact Draft.start.addLines_finish_iff 1 raws document

/-- The step that a line is, if it is one. -/
def Line.step? : Line × Nat → Option Step
  | (.text content, number) => some ⟨content, number⟩
  | _ => none

/-- The step that a raw line with its number is, if it is one: all its text but the blanks before
it. -/
def writtenStep? (raw : List Char × Nat) : Option Step :=
  match Line.classify raw.1 with
  | .ok (.text _) => some ⟨String.ofList (Text.trimStart raw.1), raw.2⟩
  | _ => none

/-- The steps that stand in some raw lines, the first of which has the given number. -/
def writtenSteps (raws : List (List Char)) (number : Nat) : List Step :=
  (raws.zipIdx number).filterMap writtenStep?

namespace Grammar

theorem Tags.filterMap_step? {lines : List (Line × Nat)}
    {entries : List (String × AnnotationValue)} (h : Tags lines entries) :
    lines.filterMap Line.step? = [] := by
  induction h with
  | nil => rfl
  | cons _ _ ih => exact ih

theorem Steps.filterMap_step? {lines : List (Line × Nat)} {steps : List Step}
    (h : Steps lines steps) : lines.filterMap Line.step? = steps := by
  induction h with
  | nil => rfl
  | cons _ ih => exact congrArg _ ih

theorem Scenarios.flatMap_steps {lines : List (Line × Nat)} {scenarios : List Scenario}
    (h : Scenarios lines scenarios) :
    scenarios.flatMap Scenario.steps = lines.filterMap Line.step? := by
  induction h with
  | nil => rfl
  | cons htags _ hsteps _ ih =>
      rw [List.flatMap_cons, ih, List.filterMap_append, htags.filterMap_step?, List.nil_append,
        List.filterMap_cons_none rfl, List.filterMap_append, hsteps.filterMap_step?]

theorem FeatureFile.flatMap_steps {lines : List (Line × Nat)} {document : Document}
    (h : FeatureFile lines document) :
    document.scenarios.flatMap Scenario.steps = lines.filterMap Line.step? := by
  obtain ⟨htags, -, hrest⟩ := h
  rw [List.filterMap_append, htags.filterMap_step?, List.nil_append,
    List.filterMap_cons_none rfl, hrest.flatMap_steps]

end Grammar

/-- A line of text keeps everything but the blanks before it. -/
theorem Line.text_of_classify {raw : List Char} {text : String}
    (h : Line.classify raw = .ok (.text text)) : text = String.ofList (Text.trimStart raw) := by
  unfold Line.classify at h
  split at h
  · cases h
  · cases h
  · unfold Line.ofDirective at h
    split at h
    · cases h
    · dsimp only at h
      split at h <;> cases h
  · split at h
    · cases h
    · cases h
    · cases h
      rfl

theorem filterMap_step?_significantLines {raws : List (List Char)} {lines : List Line}
    (h : List.Forall₂ (fun raw line => Line.classify raw = .ok line) raws lines) (number : Nat) :
    (significantLines lines number).filterMap Line.step? = writtenSteps raws number := by
  induction h generalizing number with
  | nil => rfl
  | @cons raw line raws lines hline _ ih =>
      have hrest := ih (number + 1)
      simp only [significantLines, writtenSteps] at hrest
      simp only [significantLines, writtenSteps, List.zipIdx_cons, List.filterMap_cons,
        writtenStep?, hline, ← hrest]
      cases line with
      | text text =>
          have htext := Line.text_of_classify hline
          subst htext
          rfl
      | blank | comment | tag | feature | scenario => rfl

/-- A text is read exactly if all its lines can be told and the grammar derives those that say
something, and then as the document of that derivation. The steps of the document are the lines of
text, one by one in their order: none is lost, none is there twice. -/
theorem Document.parse_eq_ok_iff_derives (text : String) (document : Document) :
    Document.parse text = .ok document ↔
      (∃ lines,
        List.Forall₂ (fun raw line => Line.classify raw = .ok line)
          (Text.lines (Document.withoutMark text.toList)) lines ∧
        Grammar.FeatureFile (significantLines lines 1) document) ∧
      document.scenarios.flatMap Scenario.steps =
        writtenSteps (Text.lines (Document.withoutMark text.toList)) 1 := by
  rw [Document.parse, Document.ofLines_eq_ok_iff]
  constructor
  · rintro ⟨lines, hlines, hfile⟩
    refine ⟨⟨lines, hlines, hfile⟩, ?_⟩
    rw [hfile.flatMap_steps, filterMap_step?_significantLines hlines]
  · exact fun h => h.1

end FeatureCompiler
