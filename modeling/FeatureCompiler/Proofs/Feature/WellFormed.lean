import FeatureCompiler.Proofs.Feature.Grammar
import FeatureCompiler.Proofs.Text.Lines
import FeatureCompiler.Proofs.Text.Trim

/-!
Documents that a feature file can say. Names are trimmed and stand in one line, keys are words
before an equals sign, a text that is the value of an annotation stands in one line, and a step
starts like no other kind of line. Lists are not restricted at all, since they can be written with
escapes. Every document that is read is of this form.
-/

namespace FeatureCompiler

/-- A text that can stand behind the word of a header. -/
def IsName (name : String) : Prop :=
  '\n' ∉ name.toList ∧ Text.IsTrimmed name.toList

/-- A text that can stand before the equals sign of an annotation. -/
def IsKey (key : String) : Prop :=
  key ≠ "" ∧ ∀ c ∈ key.toList, Text.isBlank c = false ∧ c ≠ '='

/-- A text that can be a line of steps, without the blanks before it. -/
def IsStepText (text : String) : Prop :=
  (∃ c rest, text.toList = c :: rest ∧ Text.isBlank c = false ∧ c ≠ '#' ∧ c ≠ '@') ∧
    '\n' ∉ text.toList ∧ ¬ "Feature:".toList <+: text.toList ∧
    ¬ "Scenario:".toList <+: text.toList

/-- A value that one line can give to a key. -/
def AnnotationValue.IsWritable : AnnotationValue → Prop
  | .single text => '\n' ∉ text.toList
  | .list _ => True

structure AnnotationSet.WellFormed (set : AnnotationSet) : Prop where
  isKey : ∀ entry ∈ set.entries, IsKey entry.1
  isWritable : ∀ entry ∈ set.entries, entry.2.IsWritable

structure Scenario.WellFormed (scenario : Scenario) : Prop where
  isName : IsName scenario.name
  annotations : scenario.annotations.WellFormed
  isStepText : ∀ step ∈ scenario.steps, IsStepText step.text

structure Document.WellFormed (document : Document) : Prop where
  isName : IsName document.feature
  annotations : document.annotations.WellFormed
  scenarios : ∀ scenario ∈ document.scenarios, scenario.WellFormed

namespace Line

theorem after?_eq_some_iff {expected text rest : List Char} :
    after? expected text = some rest ↔ text = expected ++ rest := by
  fun_induction after? expected text with
  | case1 text => simp [eq_comm]
  | case2 => simp
  | case3 expected more c ih => simp [ih]
  | case4 c more d text hne => simp [hne]

theorem after?_eq_none_iff {expected text : List Char} :
    after? expected text = none ↔ ¬ expected <+: text := by
  rw [Option.eq_none_iff_forall_ne_some]
  constructor
  · rintro h ⟨rest, rfl⟩
    exact h rest (after?_eq_some_iff.mpr rfl)
  · rintro h rest hrest
    exact h ⟨rest, (after?_eq_some_iff.mp hrest).symm⟩

/-- What a line that is read says is of a form that a document can have. -/
def WellFormed : Line → Prop
  | .blank | .comment => True
  | .tag key raw => IsKey key ∧ '\n' ∉ raw
  | .feature name | .scenario name => IsName name
  | .text content => IsStepText content

theorem wellFormed_of_directive {directive : List Char} {line : Line}
    (hdirective : '\n' ∉ directive) (h : ofDirective directive = .ok line) : line.WellFormed := by
  unfold ofDirective at h
  split at h
  · cases h
  · next c raw hraw =>
      dsimp only at h
      split at h
      · cases h
      · next hkey =>
          cases h
          rw [not_or, List.any_eq_true] at hkey
          obtain ⟨hne, hblank⟩ := hkey
          refine ⟨⟨?_, ?_⟩, ?_⟩
          · intro hempty
            apply hne
            simpa using congrArg String.toList hempty
          · intro c hc
            rw [String.toList_ofList] at hc
            have hbefore := List.all_eq_true.mp List.all_takeWhile c (Text.mem_of_mem_trim hc)
            refine ⟨?_, by simpa using hbefore⟩
            by_contra hc'
            exact hblank ⟨c, hc, by simpa using hc'⟩
          · intro hnewline
            apply hdirective
            apply (List.dropWhile_sublist (· ≠ '=')).subset
            rw [hraw]
            exact List.mem_cons_of_mem _ hnewline

theorem isName_trim {text : List Char} (htext : '\n' ∉ text) :
    IsName (String.ofList (Text.trim text)) := by
  rw [IsName, String.toList_ofList]
  exact ⟨fun h => htext (Text.mem_of_mem_trim h), Text.isTrimmed_trim text⟩

/-- A line that starts like no other kind of line is a step. Blanks behind it do not change how it
starts. -/
theorem isStepText_trimStart {raw : List Char} (hraw : '\n' ∉ raw) {c : Char} {more : List Char}
    (htrim : Text.trim raw = c :: more) (hcomment : c ≠ '#') (htag : c ≠ '@')
    (hfeature : ¬ "Feature:".toList <+: Text.trim raw)
    (hscenario : ¬ "Scenario:".toList <+: Text.trim raw) :
    IsStepText (String.ofList (Text.trimStart raw)) := by
  rw [IsStepText, String.toList_ofList]
  refine ⟨?_, ?_, ?_, ?_⟩
  · obtain ⟨rest, hrest⟩ := Text.trimEnd_isPrefixOf (Text.trimStart raw)
    have hstart : Text.trimStart raw = c :: (more ++ rest) := by
      rw [← hrest, ← Text.trim, htrim, List.cons_append]
    refine ⟨c, more ++ rest, hstart, ?_, hcomment, htag⟩
    apply Text.isBlank_head_trimStart raw
    rw [hstart]
    rfl
  · intro h
    exact hraw ((List.dropWhile_sublist Text.isBlank).subset h)
  · rintro ⟨rest, hrest⟩
    apply hfeature
    rw [Text.trim, ← hrest, Text.trimEnd_append rfl (by decide)]
    exact List.prefix_append _ _
  · rintro ⟨rest, hrest⟩
    apply hscenario
    rw [Text.trim, ← hrest, Text.trimEnd_append rfl (by decide)]
    exact List.prefix_append _ _

theorem wellFormed_of_classify {raw : List Char} {line : Line} (hraw : '\n' ∉ raw)
    (h : classify raw = .ok line) : line.WellFormed := by
  have htrimmed : '\n' ∉ Text.trim raw := fun hmem => hraw (Text.mem_of_mem_trim hmem)
  unfold classify at h
  split at h
  · cases h
    trivial
  · cases h
    trivial
  · next directive htrim =>
      rw [htrim, List.mem_cons, not_or] at htrimmed
      exact wellFormed_of_directive htrimmed.2 h
  · next hblank hcomment htag =>
      split at h
      · next name hname =>
          cases h
          rw [after?_eq_some_iff.mp hname, List.mem_append, not_or] at htrimmed
          exact isName_trim htrimmed.2
      · next name _ hname =>
          cases h
          rw [after?_eq_some_iff.mp hname, List.mem_append, not_or] at htrimmed
          exact isName_trim htrimmed.2
      · next hfeature hscenario =>
          cases h
          cases htrim : Text.trim raw with
          | nil => exact absurd htrim hblank
          | cons c more =>
              apply isStepText_trimStart hraw htrim
              · rintro rfl
                exact hcomment more htrim
              · rintro rfl
                exact htag more htrim
              · exact after?_eq_none_iff.mp hfeature
              · exact after?_eq_none_iff.mp hscenario

theorem wellFormed_of_classify_all {raws : List (List Char)} {lines : List Line}
    (h : List.Forall₂ (fun raw line => classify raw = .ok line) raws lines)
    (hraws : ∀ raw ∈ raws, '\n' ∉ raw) : ∀ line ∈ lines, line.WellFormed := by
  induction h with
  | nil => exact fun line hline => absurd hline List.not_mem_nil
  | cons hline _ ih =>
      rw [List.forall_mem_cons] at hraws ⊢
      exact ⟨wellFormed_of_classify hraws.1 hline, ih hraws.2⟩

end Line

namespace AnnotationValue

theorem mem_of_enclosed? {first last : Char} {text inner : List Char}
    (h : enclosed? first last text = some inner) {c : Char} (hc : c ∈ inner) : c ∈ text := by
  unfold enclosed? at h
  split at h
  · cases h
  · next d rest =>
      split at h
      · cases h
        exact List.mem_cons_of_mem _ ((List.dropLast_sublist rest).subset hc)
      · cases h

theorem isWritable_of_coerce {raw : List Char} {value : AnnotationValue} (hraw : '\n' ∉ raw)
    (h : coerce raw = .ok value) : value.IsWritable := by
  have htrimmed : '\n' ∉ Text.trim raw := fun hmem => hraw (Text.mem_of_mem_trim hmem)
  unfold coerce ofTrimmed at h
  split at h
  · cases hitems : Json.parseStrings (Text.trim raw) with
    | error error => simp [hitems, Except.map] at h
    | ok items =>
        rw [hitems] at h
        cases h
        trivial
  · split at h
    · next inner hinner =>
        cases h
        rw [IsWritable, String.toList_ofList]
        exact fun hmem => htrimmed (mem_of_enclosed? hinner hmem)
    · split at h
      · cases h
        trivial
      · cases h
        rwa [IsWritable, String.toList_ofList]

end AnnotationValue

namespace AnnotationSet

theorem mem_of_mem_insertEntry {key : String} {value : AnnotationValue}
    {entries : List (String × AnnotationValue)} {entry : String × AnnotationValue}
    (h : entry ∈ insertEntry key value entries) : entry = (key, value) ∨ entry ∈ entries := by
  induction entries with
  | nil => exact .inl (List.mem_singleton.mp h)
  | cons first rest ih =>
      rw [insertEntry] at h
      split at h
      · rcases List.mem_cons.mp h with hentry | hrest
        · exact .inl hentry
        · exact .inr (List.mem_cons_of_mem _ hrest)
      · rcases List.mem_cons.mp h with hentry | hrest
        · exact .inr (hentry ▸ List.mem_cons_self)
        · rcases ih hrest with hentry | hmem
          · exact .inl hentry
          · exact .inr (List.mem_cons_of_mem _ hmem)

theorem mem_of_mem_ofEntries {entries : List (String × AnnotationValue)}
    {entry : String × AnnotationValue} (h : entry ∈ (ofEntries entries).entries) :
    entry ∈ entries := by
  induction entries using List.reverseRecOn with
  | nil => cases h
  | append_singleton entries last ih =>
      rw [ofEntries_append_singleton] at h
      rcases mem_of_mem_insertEntry h with hentry | hmem
      · exact List.mem_append_right _ (hentry ▸ List.mem_singleton_self last)
      · exact List.mem_append_left _ (ih hmem)

end AnnotationSet

namespace Grammar

theorem Tags.wellFormed {lines : List (Line × Nat)} {entries : List (String × AnnotationValue)}
    (h : Tags lines entries) (hlines : ∀ line ∈ lines, line.1.WellFormed) :
    ∀ entry ∈ entries, IsKey entry.1 ∧ entry.2.IsWritable := by
  induction h with
  | nil => exact fun entry hentry => absurd hentry List.not_mem_nil
  | cons hvalue _ ih =>
      rw [List.forall_mem_cons] at hlines ⊢
      obtain ⟨⟨hkey, hraw⟩, hrest⟩ := hlines
      exact ⟨⟨hkey, AnnotationValue.isWritable_of_coerce hraw hvalue⟩, ih hrest⟩

theorem Tags.wellFormed_of_collects {lines : List (Line × Nat)}
    {entries : List (String × AnnotationValue)} {set : AnnotationSet} (h : Tags lines entries)
    (hset : set.Collects entries) (hlines : ∀ line ∈ lines, line.1.WellFormed) :
    set.WellFormed := by
  rw [AnnotationSet.collects_iff] at hset
  subst hset
  have hentries := h.wellFormed hlines
  exact {
    isKey := fun entry hentry => (hentries entry (AnnotationSet.mem_of_mem_ofEntries hentry)).1
    isWritable := fun entry hentry =>
      (hentries entry (AnnotationSet.mem_of_mem_ofEntries hentry)).2 }

theorem Steps.wellFormed {lines : List (Line × Nat)} {steps : List Step} (h : Steps lines steps)
    (hlines : ∀ line ∈ lines, line.1.WellFormed) : ∀ step ∈ steps, IsStepText step.text := by
  induction h with
  | nil => exact fun step hstep => absurd hstep List.not_mem_nil
  | cons _ ih =>
      rw [List.forall_mem_cons] at hlines ⊢
      exact ⟨hlines.1, ih hlines.2⟩

theorem Scenarios.wellFormed {lines : List (Line × Nat)} {scenarios : List Scenario}
    (h : Scenarios lines scenarios) (hlines : ∀ line ∈ lines, line.1.WellFormed) :
    ∀ scenario ∈ scenarios, scenario.WellFormed := by
  induction h with
  | nil => exact fun scenario hscenario => absurd hscenario List.not_mem_nil
  | cons htags hannotations hsteps _ ih =>
      simp only [List.forall_mem_append, List.forall_mem_cons] at hlines ⊢
      obtain ⟨hlines, hname, htexts, hrest⟩ := hlines
      exact ⟨⟨hname, htags.wellFormed_of_collects hannotations hlines, hsteps.wellFormed htexts⟩,
        ih hrest⟩

theorem FeatureFile.wellFormed {lines : List (Line × Nat)} {document : Document}
    (h : FeatureFile lines document) (hlines : ∀ line ∈ lines, line.1.WellFormed) :
    document.WellFormed := by
  obtain ⟨htags, hannotations, hscenarios⟩ := h
  simp only [List.forall_mem_append, List.forall_mem_cons] at hlines
  obtain ⟨hlines, hname, hrest⟩ := hlines
  exact ⟨hname, htags.wellFormed_of_collects hannotations hlines, hscenarios.wellFormed hrest⟩

end Grammar

/-- Every document that is read is well formed. -/
theorem Document.wellFormed_of_parse {text : String} {document : Document}
    (h : Document.parse text = .ok document) : document.WellFormed := by
  rw [Document.parse, Document.ofLines_eq_ok_iff] at h
  obtain ⟨lines, hlines, hfile⟩ := h
  apply hfile.wellFormed
  intro line hline
  apply Line.wellFormed_of_classify_all hlines fun raw hraw => Text.newline_notMem_of_mem_lines hraw
  rw [← List.zipIdx_map_fst 1 lines]
  exact List.mem_map_of_mem (List.mem_filter.mp hline).1

end FeatureCompiler
