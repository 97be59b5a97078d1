import FeatureCompiler.Proofs.Annotation.Coercion
import FeatureCompiler.Proofs.Feature.Blocks
import FeatureCompiler.Proofs.Feature.WellFormed

/-!
A feature file for every well-formed document. Texts are written in double quotes and lists as JSON
arrays, so that no value depends on commas or blanks in it, and every line ends with a carriage
return and a line feed, so that a return at the end of a step stays. Read again, such a file gives
the document, the numbers of its lines apart: the well-formed documents are all that can be read.
-/

namespace FeatureCompiler

/-- The line of an annotation. -/
def tagLine (entry : String × AnnotationValue) : List Char :=
  '@' :: entry.1.toList ++ '=' :: entry.2.written

/-- The line of a header. -/
def headerLine (word : List Char) (name : String) : List Char :=
  word ++ name.toList

def Scenario.written (scenario : Scenario) : List (List Char) :=
  scenario.annotations.entries.map tagLine ++
    headerLine "Scenario:".toList scenario.name ::
      scenario.steps.map fun step => step.text.toList

def Document.writtenLines (document : Document) : List (List Char) :=
  document.annotations.entries.map tagLine ++
    headerLine "Feature:".toList document.feature :: document.scenarios.flatMap Scenario.written

/-- A text that says what the document says. -/
def Document.written (document : Document) : String :=
  String.ofList (document.writtenLines.flatMap (· ++ ['\r', '\n']))

namespace Line

theorem isTrimmed_tagLine (entry : String × AnnotationValue) :
    Text.IsTrimmed (tagLine entry) := by
  obtain ⟨first, last, inner, hwritten, -, hlast⟩ := entry.2.written_enclosed
  have hline : tagLine entry = '@' :: (entry.1.toList ++ '=' :: first :: inner) ++ [last] := by
    simp [tagLine, hwritten]
  rw [hline]
  exact .enclosed (by decide) hlast _

theorem classify_tagLine {entry : String × AnnotationValue} (hkey : IsKey entry.1) :
    classify (tagLine entry) = .ok (.tag entry.1 entry.2.written) := by
  obtain ⟨hne, hchars⟩ := hkey
  have hnone : ∀ c ∈ entry.1.toList, decide (c ≠ '=') = true := by
    intro c hc
    exact decide_eq_true (hchars c hc).2
  have htake : (entry.1.toList ++ '=' :: entry.2.written).takeWhile (· ≠ '=') =
      entry.1.toList := by
    rw [List.takeWhile_append_of_pos hnone]
    simp
  have hdrop : (entry.1.toList ++ '=' :: entry.2.written).dropWhile (· ≠ '=') =
      '=' :: entry.2.written := by
    rw [List.dropWhile_append_of_pos hnone]
    simp
  have hkey : Text.trim entry.1.toList = entry.1.toList :=
    Text.trim_of_isTrimmed (.of_forall fun c hc => (hchars c hc).1)
  have hvalid : ¬ (entry.1.toList = [] ∨ entry.1.toList.any Text.isBlank = true) := by
    rw [not_or, List.any_eq_true]
    constructor
    · exact fun h => hne (String.toList_eq_nil_iff.mp h)
    · rintro ⟨c, hc, hblank⟩
      rw [(hchars c hc).1] at hblank
      cases hblank
  rw [classify, Text.trim_of_isTrimmed (isTrimmed_tagLine entry), tagLine, List.cons_append]
  simp only [ofDirective, hdrop, htake, hkey, if_neg hvalid, String.ofList_toList]

/-- Lines that are neither blank nor start with a mark are told by the words of headers. -/
theorem classify_of_trim {raw : List Char} {c : Char} {more : List Char}
    (htrim : Text.trim raw = c :: more) (hcomment : c ≠ '#') (htag : c ≠ '@') :
    classify raw =
      match after? "Feature:".toList (Text.trim raw), after? "Scenario:".toList (Text.trim raw) with
      | some name, _ => .ok (.feature (String.ofList (Text.trim name)))
      | none, some name => .ok (.scenario (String.ofList (Text.trim name)))
      | none, none => .ok (.text (String.ofList (Text.trimStart raw))) := by
  unfold classify
  split
  · next h => cases htrim.symm.trans h
  · next h =>
      cases htrim.symm.trans h
      exact absurd rfl hcomment
  · next h =>
      cases htrim.symm.trans h
      exact absurd rfl htag
  · rfl

theorem trim_headerLine (word : List Char) {first last : Char} (hfirst : word.head? = some first)
    (hfirst_blank : Text.isBlank first = false) (hlast : word.getLast? = some last)
    (hlast_blank : Text.isBlank last = false) {name : String} (hname : IsName name) :
    Text.trim (headerLine word name) = word ++ name.toList := by
  have hstart : Text.trimStart (headerLine word name) = word ++ name.toList := by
    apply Text.trimStart_of_head
    intro c hc
    cases word with
    | nil => cases hlast
    | cons d word =>
        cases hfirst
        cases hc
        exact hfirst_blank
  rw [Text.trim, hstart, Text.trimEnd_append hlast hlast_blank, Text.trimEnd_of_getLast hname.2.2]

theorem classify_featureLine {name : String} (hname : IsName name) :
    classify (headerLine "Feature:".toList name) = .ok (.feature name) := by
  have htrim := trim_headerLine "Feature:".toList rfl rfl rfl rfl hname
  rw [classify_of_trim htrim (by decide) (by decide), htrim, after?_eq_some_iff.mpr rfl]
  simp only [Text.trim_of_isTrimmed hname.2, String.ofList_toList]

theorem classify_scenarioLine {name : String} (hname : IsName name) :
    classify (headerLine "Scenario:".toList name) = .ok (.scenario name) := by
  have htrim := trim_headerLine "Scenario:".toList rfl rfl rfl rfl hname
  have hfeature : after? "Feature:".toList ("Scenario:".toList ++ name.toList) = none := rfl
  rw [classify_of_trim htrim (by decide) (by decide), htrim, hfeature,
    after?_eq_some_iff.mpr rfl]
  simp only [Text.trim_of_isTrimmed hname.2, String.ofList_toList]

theorem classify_stepLine {text : String} (htext : IsStepText text) :
    classify text.toList = .ok (.text text) := by
  obtain ⟨⟨c, rest, hchars, hblank, hcomment, htag⟩, -, hfeature, hscenario⟩ := htext
  have hstart : Text.trimStart text.toList = text.toList := by
    apply Text.trimStart_of_head
    rw [hchars]
    simpa using hblank
  have htrim : Text.trim text.toList = c :: Text.trimEnd rest := by
    have hlast : [c].getLast? = some c := rfl
    rw [Text.trim, hstart, hchars]
    exact Text.trimEnd_append hlast hblank rest
  have hnone {word : List Char} (hword : ¬ word <+: text.toList) :
      after? word (Text.trim text.toList) = none := by
    rw [after?_eq_none_iff, Text.trim, hstart]
    exact fun h => hword (h.trans (Text.trimEnd_isPrefixOf text.toList))
  rw [classify_of_trim htrim hcomment htag, hnone hfeature, hnone hscenario]
  simp only [hstart, String.ofList_toList]

end Line

namespace AnnotationSet

theorem insertEntry_of_notMem {key : String} {entries : List (String × AnnotationValue)}
    (hkey : key ∉ entries.map Prod.fst) (value : AnnotationValue) :
    insertEntry key value entries = entries ++ [(key, value)] := by
  induction entries with
  | nil => rfl
  | cons entry rest ih =>
      rw [List.map_cons, List.mem_cons, not_or] at hkey
      rw [insertEntry, if_neg (Ne.symm hkey.1), ih hkey.2, List.cons_append]

/-- Entries with keys of their own are inserted as they stand. -/
theorem empty_insertAll_entries (set : AnnotationSet) :
    (∅ : AnnotationSet).insertAll set.entries = set := by
  obtain ⟨entries, hentries⟩ := set
  change ofEntries entries = ⟨entries, hentries⟩
  induction entries using List.reverseRecOn with
  | nil => rfl
  | append_singleton entries entry ih =>
      have hsplit := hentries
      rw [List.map_append, List.nodup_append] at hsplit
      obtain ⟨hfront, -, hdisjoint⟩ := hsplit
      have hnew : entry.1 ∉ entries.map Prod.fst :=
        fun h => hdisjoint _ h entry.1 (by simp) rfl
      simp only [ofEntries_append_singleton, ih hfront, insert, insertEntry_of_notMem hnew]

end AnnotationSet

namespace Draft

theorem readsTags_tagLines {entries : List (String × AnnotationValue)}
    (hentries : ∀ entry ∈ entries, IsKey entry.1) : ReadsTags (entries.map tagLine) entries := by
  intro draft number
  induction entries generalizing draft number with
  | nil => rfl
  | cons entry rest ih =>
      rw [List.forall_mem_cons] at hentries
      rw [List.map_cons, addLines_cons_eq_ok_iff]
      refine ⟨_, draft.addAnnotation entry.1 entry.2, Line.classify_tagLine hentries.1, ?_,
        ih hentries.2 _ _⟩
      simp only [addLine, AnnotationValue.coerce_written]

end Draft

theorem map_text_writtenSteps_texts {steps : List Step}
    (hsteps : ∀ step ∈ steps, IsStepText step.text) (number : Nat) :
    (writtenSteps (steps.map fun step => step.text.toList) number).map Step.text =
      steps.map Step.text := by
  induction steps generalizing number with
  | nil => rfl
  | cons step rest ih =>
      rw [List.forall_mem_cons] at hsteps
      have hline := Line.classify_stepLine hsteps.1
      have htext := Line.text_of_classify hline
      have hrest := ih hsteps.2 (number + 1)
      simp only [writtenSteps] at hrest
      simp [writtenSteps, writtenStep?, hline, ← htext, hrest]

namespace Draft

theorem readsScenario_written {scenario : Scenario} (hscenario : scenario.WellFormed) :
    ReadsScenario scenario.written scenario.unnumbered := by
  intro feature annotations earlier number
  obtain ⟨hname, hannotations, hsteps⟩ := hscenario
  have hlines : ∀ raw ∈ scenario.steps.map (fun step => step.text.toList), IsStepLine raw := by
    intro raw hraw
    obtain ⟨step, hstep, rfl⟩ := List.mem_map.mp hraw
    exact ⟨_, Line.classify_stepLine (hsteps step hstep), .inl ⟨_, rfl⟩⟩
  let first := number + (scenario.annotations.entries.map tagLine).length + 1
  refine ⟨_, Scenario.unnumbered_eq (map_text_writtenSteps_texts hsteps first), ?_⟩
  rw [Scenario.written, addLines_append_eq_ok_iff]
  refine ⟨_, readsTags_tagLines hannotations.isKey _ number, ?_⟩
  rw [addAnnotations_titled, addLines_cons_eq_ok_iff]
  refine ⟨_, _, Line.classify_scenarioLine hname, rfl, ?_⟩
  rw [addLines_of_steps hlines, AnnotationSet.empty_insertAll_entries]
  rfl

theorem readsScenarios_written {scenarios : List Scenario}
    (hscenarios : ∀ scenario ∈ scenarios, scenario.WellFormed) :
    List.Forall₂ ReadsScenario (scenarios.map Scenario.written)
      (scenarios.map Scenario.unnumbered) := by
  rw [List.forall₂_map_left_iff, List.forall₂_map_right_iff, List.forall₂_same]
  exact fun scenario hscenario => readsScenario_written (hscenarios scenario hscenario)

end Draft

theorem newline_notMem_tagLine {entry : String × AnnotationValue} (hkey : IsKey entry.1)
    (hvalue : entry.2.IsWritable) : '\n' ∉ tagLine entry := by
  have hkey : '\n' ∉ entry.1.toList := by
    intro h
    have hblank := (hkey.2 _ h).1
    contradiction
  have hvalue : '\n' ∉ entry.2.written := by
    cases hentry : entry.2 with
    | single text =>
        rw [hentry, AnnotationValue.IsWritable] at hvalue
        simp [AnnotationValue.written, hvalue]
    | list items => exact Json.newline_notMem_writeStrings items
  simp [tagLine, hkey, hvalue]

theorem newline_notMem_tagLines {set : AnnotationSet} (hset : set.WellFormed) :
    ∀ raw ∈ set.entries.map tagLine, '\n' ∉ raw := by
  intro raw hraw
  obtain ⟨entry, hentry, rfl⟩ := List.mem_map.mp hraw
  exact newline_notMem_tagLine (hset.isKey entry hentry) (hset.isWritable entry hentry)

theorem Scenario.newline_notMem_written {scenario : Scenario} (hscenario : scenario.WellFormed) :
    ∀ raw ∈ scenario.written, '\n' ∉ raw := by
  rw [Scenario.written, List.forall_mem_append, List.forall_mem_cons]
  refine ⟨newline_notMem_tagLines hscenario.annotations, ?_, ?_⟩
  · simp [headerLine, hscenario.isName.1]
  · intro raw hraw
    obtain ⟨step, hstep, rfl⟩ := List.mem_map.mp hraw
    exact (hscenario.isStepText step hstep).2.1

namespace Document

/-- A document without the numbers of its lines. -/
def unnumbered (document : Document) : Document :=
  { document with scenarios := document.scenarios.map Scenario.unnumbered }

theorem newline_notMem_writtenLines {document : Document} (hdocument : document.WellFormed) :
    ∀ raw ∈ document.writtenLines, '\n' ∉ raw := by
  rw [writtenLines, List.forall_mem_append, List.forall_mem_cons]
  refine ⟨newline_notMem_tagLines hdocument.annotations, ?_, ?_⟩
  · simp [headerLine, hdocument.isName.1]
  · intro raw hraw
    obtain ⟨scenario, hscenario, hraw⟩ := List.mem_flatMap.mp hraw
    exact Scenario.newline_notMem_written (hdocument.scenarios scenario hscenario) raw hraw

/-- A written text starts with an annotation or with the feature header, so with no mark. -/
theorem withoutMark_written (document : Document) :
    withoutMark document.written.toList = document.written.toList := by
  rw [written, String.toList_ofList, writtenLines]
  cases document.annotations.entries <;> rfl

theorem addLines_writtenLines {document : Document} (hdocument : document.WellFormed) :
    ∃ scenarios : List Scenario,
      scenarios.map Scenario.unnumbered = document.scenarios.map Scenario.unnumbered ∧
      Draft.start.addLines 1 document.writtenLines =
        .ok (.titled document.feature document.annotations scenarios.reverse ∅) := by
  obtain ⟨hname, hannotations, hscenarios⟩ := hdocument
  obtain ⟨scenarios, hsame, hread⟩ := Draft.addLines_of_blocks
    (Draft.readsScenarios_written hscenarios) document.feature document.annotations []
    (1 + (document.annotations.entries.map tagLine).length + 1)
  refine ⟨scenarios, hsame, ?_⟩
  rw [writtenLines, Draft.addLines_append_eq_ok_iff]
  refine ⟨_, Draft.readsTags_tagLines hannotations.isKey _ 1, ?_⟩
  rw [Draft.start, Draft.addAnnotations_untitled,
    AnnotationSet.empty_insertAll_entries, Draft.addLines_cons_eq_ok_iff]
  refine ⟨_, _, Line.classify_featureLine hname, rfl, ?_⟩
  rwa [List.append_nil, ← List.flatMap_def] at hread

/-- A written document is read back, the numbers of its lines apart. -/
theorem parse_written {document : Document} (hdocument : document.WellFormed) :
    ∃ read, parse document.written = .ok read ∧ read.unnumbered = document.unnumbered := by
  obtain ⟨scenarios, hsame, hread⟩ := addLines_writtenLines hdocument
  have hlines : Text.lines (withoutMark document.written.toList) = document.writtenLines := by
    rw [withoutMark_written, written, String.toList_ofList,
      Text.lines_flatMap (newline_notMem_writtenLines hdocument)]
  refine ⟨⟨document.feature, document.annotations, scenarios⟩, ?_, ?_⟩
  · rw [parse, hlines, ofLines, bind_eq_ok_iff]
    refine ⟨_, hread, ?_⟩
    rw [mapError_eq_ok_iff, Draft.finish_titled_iff, List.reverse_reverse]
    exact ⟨rfl, rfl⟩
  · rw [unnumbered, unnumbered, hsame]

/-- Whether a document is well formed does not depend on the numbers of its lines. -/
theorem wellFormed_unnumbered_iff {document : Document} :
    document.unnumbered.WellFormed ↔ document.WellFormed := by
  have hscenario (scenario : Scenario) :
      scenario.unnumbered.WellFormed ↔ scenario.WellFormed := by
    have hsteps : (∀ step ∈ scenario.unnumbered.steps, IsStepText step.text) ↔
        ∀ step ∈ scenario.steps, IsStepText step.text := List.forall_mem_map
    constructor
    · exact fun h => ⟨h.isName, h.annotations, hsteps.mp h.isStepText⟩
    · exact fun h => ⟨h.isName, h.annotations, hsteps.mpr h.isStepText⟩
  have hscenarios : (∀ scenario ∈ document.unnumbered.scenarios, scenario.WellFormed) ↔
      ∀ scenario ∈ document.scenarios, scenario.WellFormed := by
    rw [unnumbered, List.forall_mem_map]
    exact forall₂_congr fun scenario _ => hscenario scenario
  constructor
  · exact fun h => ⟨h.isName, h.annotations, hscenarios.mp h.scenarios⟩
  · exact fun h => ⟨h.isName, h.annotations, hscenarios.mpr h.scenarios⟩

/-- The documents that some text says are exactly the well-formed ones. -/
theorem exists_parse_iff_wellFormed (document : Document) :
    (∃ text read, parse text = .ok read ∧ read.unnumbered = document.unnumbered) ↔
      document.WellFormed := by
  constructor
  · rintro ⟨text, read, hread, hsame⟩
    rw [← wellFormed_unnumbered_iff, ← hsame, wellFormed_unnumbered_iff]
    exact wellFormed_of_parse hread
  · intro hdocument
    exact ⟨document.written, parse_written hdocument⟩

end Document

end FeatureCompiler
