import FeatureCompiler.Feature.Outline
import FeatureCompiler.Proofs.Feature.WellFormed
import FeatureCompiler.Proofs.Text.Quoted
import Mathlib.Data.List.Basic

/-!
Outlines lose nothing of the documents that are read. Only the values of annotations are quoted, so
a name, a key or a step can look like any part of an outline; but none of them holds a line end, and
what a line belongs to is told by its indentation alone. So the lines can be told from the outline,
and the document from its lines: a key ends at the first blank, a value and a name with their line,
and the number of a step is found from the end of its line.
-/

namespace FeatureCompiler

open Text (Delimits NeverStarts)

/-- A line of an outline: how deep it stands, and what it says. -/
structure OutlineItem where
  depth : Nat
  text : List Char
deriving DecidableEq

namespace OutlineItem

def line (item : OutlineItem) : List Char :=
  List.replicate (2 * item.depth) ' ' ++ item.text ++ ['\n']

/-- A text that starts behind the indentation of its line and ends with the line. -/
def FitsLine (text : List Char) : Prop :=
  text.head?.any (· ≠ ' ') = true ∧ '\n' ∉ text

instance (text : List Char) : Decidable (FitsLine text) :=
  inferInstanceAs (Decidable (_ ∧ _))

theorem FitsLine.exists_cons {text : List Char} (h : FitsLine text) :
    ∃ c rest, text = c :: rest ∧ c ≠ ' ' := by
  cases text with
  | nil => cases h.1
  | cons c rest => exact ⟨c, rest, rfl, by simpa using h.1⟩

theorem FitsLine.append {text more : List Char} (h : FitsLine text) (hmore : '\n' ∉ more) :
    FitsLine (text ++ more) := by
  obtain ⟨c, rest, rfl, -⟩ := h.exists_cons
  refine ⟨h.1, ?_⟩
  rw [List.mem_append, not_or]
  exact ⟨h.2, hmore⟩

theorem toList_outlineLine (depth : Nat) (text : String) :
    (outlineLine depth text).toList = line ⟨depth, text.toList⟩ := by
  simp [outlineLine, line]

/-- The indentation ends at the first character that is not a space. -/
theorem indented_inj {depth depth' : Nat} {c c' : Char} {rest rest' : List Char} (hc : c ≠ ' ')
    (hc' : c' ≠ ' ') (h : List.replicate (2 * depth) ' ' ++ c :: rest =
      List.replicate (2 * depth') ' ' ++ c' :: rest') :
    depth = depth' ∧ c :: rest = c' :: rest' := by
  have hspaces (depth : Nat) {c : Char} (hc : c ≠ ' ') (rest : List Char) :
      (List.replicate (2 * depth) ' ' ++ c :: rest).takeWhile (· = ' ') =
        List.replicate (2 * depth) ' ' := by
    rw [List.takeWhile_append_of_pos (by simp), List.takeWhile_cons_of_neg (by simpa using hc),
      List.append_nil]
  have hlengths := congrArg (fun text => (text.takeWhile (· = ' ')).length) h
  simp only [hspaces _ hc, hspaces _ hc', List.length_replicate] at hlengths
  obtain rfl : depth = depth' := by omega
  exact ⟨rfl, List.append_cancel_left h⟩

theorem line_append_inj {item other : OutlineItem} (hitem : FitsLine item.text)
    (hother : FitsLine other.text) {rest behind : List Char}
    (h : item.line ++ rest = other.line ++ behind) : item = other ∧ rest = behind := by
  have hall {item : OutlineItem} (hitem : FitsLine item.text) :
      (List.replicate (2 * item.depth) ' ' ++ item.text).all (· ≠ '\n') = true := by
    rw [List.all_eq_true]
    intro c hc
    rw [decide_eq_true_eq]
    rintro rfl
    rcases List.mem_append.mp hc with hspace | htext
    · exact absurd (List.eq_of_mem_replicate hspace) (by decide)
    · exact hitem.2 htext
  rw [line, line, List.append_assoc, List.append_assoc _ _ behind] at h
  obtain ⟨hlines, hrest⟩ := Text.append_cons_inj (by decide) (hall hitem) (hall hother) h
  obtain ⟨c, more, htext, hc⟩ := hitem.exists_cons
  obtain ⟨d, others, htext', hd⟩ := hother.exists_cons
  rw [htext, htext'] at hlines
  obtain ⟨hdepth, hsame⟩ := indented_inj hc hd hlines
  refine ⟨?_, hrest⟩
  rw [OutlineItem.mk.injEq]
  exact ⟨hdepth, htext.trans (hsame.trans htext'.symm)⟩

/-- Items can be told from the lines that are written for them. -/
theorem flatMap_line_inj {items others : List OutlineItem}
    (hitems : ∀ item ∈ items, FitsLine item.text) (hothers : ∀ item ∈ others, FitsLine item.text)
    (h : items.flatMap line = others.flatMap line) : items = others := by
  induction items generalizing others with
  | nil =>
      cases others with
      | nil => rfl
      | cons other others => simp [line] at h
  | cons item items ih =>
      cases others with
      | nil => simp [line] at h
      | cons other others =>
          rw [List.forall_mem_cons] at hitems hothers
          obtain ⟨rfl, hmore⟩ := line_append_inj hitems.1 hothers.1 h
          rw [ih hitems.2 hothers.2 hmore]

/-- Where these items start, everything deeper has come to its end. -/
def EndsAbove (depth : Nat) (items : List OutlineItem) : Prop :=
  ∀ item ∈ items.head?, item.depth ≤ depth

theorem EndsAbove.mono {depth deeper : Nat} {items : List OutlineItem} (h : EndsAbove depth items)
    (hdeeper : depth ≤ deeper) : EndsAbove deeper items :=
  fun item hitem => Nat.le_trans (h item hitem) hdeeper

theorem deeper_append_inj {depth : Nat} {inner inner' rest rest' : List OutlineItem}
    (hinner : ∀ item ∈ inner, depth < item.depth) (hinner' : ∀ item ∈ inner', depth < item.depth)
    (hrest : EndsAbove depth rest) (hrest' : EndsAbove depth rest')
    (h : inner ++ rest = inner' ++ rest') : inner = inner' ∧ rest = rest' := by
  have hdeeper {inner rest : List OutlineItem} (hinner : ∀ item ∈ inner, depth < item.depth)
      (hrest : EndsAbove depth rest) :
      (inner ++ rest).takeWhile (fun item => depth < item.depth) = inner := by
    rw [List.takeWhile_append_of_pos (by simpa using hinner)]
    cases rest with
    | nil => simp
    | cons item rest =>
        have hitem : item.depth ≤ depth := hrest item rfl
        rw [List.takeWhile_cons_of_neg (by simpa using hitem), List.append_nil]
  have hsame : inner = inner' := by rw [← hdeeper hinner hrest, h, hdeeper hinner' hrest']
  subst hsame
  exact ⟨rfl, List.append_cancel_left h⟩

/-- A heading with what belongs to it one level deeper, or with the remark that nothing does. -/
def block (depth : Nat) (title : String) (texts : List (List Char)) : List OutlineItem :=
  if texts.isEmpty then [⟨depth, (title ++ ": (none)").toList⟩]
  else ⟨depth, (title ++ ":").toList⟩ :: texts.map (⟨depth + 1, ·⟩)

theorem block_append_inj {depth : Nat} {title : String} {texts texts' : List (List Char)}
    {rest rest' : List OutlineItem} (hrest : EndsAbove depth rest) (hrest' : EndsAbove depth rest')
    (h : block depth title texts ++ rest = block depth title texts' ++ rest') :
    texts = texts' ∧ rest = rest' := by
  have hheading : (title ++ ": (none)").toList ≠ (title ++ ":").toList := by
    intro heq
    rw [String.toList_append, String.toList_append] at heq
    exact absurd (List.append_cancel_left heq) (by decide)
  have hdeeper (texts : List (List Char)) :
      ∀ item ∈ texts.map (OutlineItem.mk (depth + 1)), depth < item.depth := by
    intro item hitem
    obtain ⟨text, -, rfl⟩ := List.mem_map.mp hitem
    exact Nat.lt_succ_self depth
  unfold block at h
  split at h
  · next hnone =>
      split at h
      · next hnone' =>
          rw [List.isEmpty_iff.mp hnone, List.isEmpty_iff.mp hnone']
          exact ⟨rfl, (List.cons.inj h).2⟩
      · exact absurd (OutlineItem.mk.inj (List.cons.inj h).1).2 hheading
  · split at h
    · exact absurd (OutlineItem.mk.inj (List.cons.inj h).1).2.symm hheading
    · obtain ⟨htexts, hsame⟩ :=
        deeper_append_inj (hdeeper texts) (hdeeper texts') hrest hrest' (List.cons.inj h).2
      refine ⟨?_, hsame⟩
      exact List.map_injective_iff.mpr (fun _ _ heq => (OutlineItem.mk.inj heq).2) htexts

theorem flatMap_line_block (depth : Nat) (title : String) (texts : List (List Char)) :
    (block depth title texts).flatMap line =
      if texts.isEmpty then (outlineLine depth (title ++ ": (none)")).toList
      else (outlineLine depth (title ++ ":")).toList ++
        texts.flatMap fun text => line ⟨depth + 1, text⟩ := by
  unfold block
  split
  · rw [List.flatMap_singleton, toList_outlineLine]
  · rw [List.flatMap_cons, toList_outlineLine, List.flatMap_map]

theorem fitsLine_of_mem_block {depth : Nat} {title : String} {texts : List (List Char)}
    (htitle : FitsLine title.toList) (htexts : ∀ text ∈ texts, FitsLine text) :
    ∀ item ∈ block depth title texts, FitsLine item.text := by
  have hheading {ending : String} (hending : '\n' ∉ ending.toList) :
      FitsLine (title ++ ending).toList := by
    rw [String.toList_append]
    exact htitle.append hending
  unfold block
  split
  · rw [List.forall_mem_singleton]
    exact hheading (by decide)
  · rw [List.forall_mem_cons, List.forall_mem_map]
    exact ⟨hheading (by decide), htexts⟩

theorem endsAbove_block {depth : Nat} {title : String} {texts : List (List Char)}
    (rest : List OutlineItem) : EndsAbove depth (block depth title texts ++ rest) := by
  unfold block
  split
  · rintro item ⟨⟩
    exact Nat.le_refl depth
  · rintro item ⟨⟩
    exact Nat.le_refl depth

end OutlineItem

open OutlineItem

def AnnotationSet.entryText (entry : String × AnnotationValue) : List Char :=
  '@' :: (entry.1.toList ++ " = ".toList ++ entry.2.quoted)

def Step.outlineText (step : Step) : List Char :=
  "- ".toList ++ step.text.toList ++ " (line ".toList ++ Nat.toDigits 10 step.line ++ [')']

def AnnotationSet.outlineItems (set : AnnotationSet) (depth : Nat) : List OutlineItem :=
  block depth "Annotations" (set.entries.map entryText)

def Scenario.outlineItems (scenario : Scenario) : List OutlineItem :=
  ⟨1, ("Scenario: " ++ scenario.name).toList⟩ :: (scenario.annotations.outlineItems 2 ++
    block 2 "Steps" (scenario.steps.map Step.outlineText))

def Document.outlineItems (document : Document) : List OutlineItem :=
  ⟨0, ("Feature: " ++ document.feature).toList⟩ :: (document.annotations.outlineItems 1 ++
    document.scenarios.flatMap Scenario.outlineItems)

theorem AnnotationSet.toList_outline (set : AnnotationSet) (depth : Nat) :
    (set.outline depth).toList = (set.outlineItems depth).flatMap line := by
  rw [outlineItems, flatMap_line_block, outline, List.isEmpty_map]
  split
  · rfl
  · rw [String.toList_append, String.toList_join, List.flatMap_map, List.flatMap_map]
    simp only [toList_outlineLine]
    simp [entryText]

theorem Step.toList_outline (step : Step) (depth : Nat) :
    (step.outline depth).toList = OutlineItem.line ⟨depth, step.outlineText⟩ := by
  have hline : step.outline depth =
      outlineLine depth ("- " ++ step.text ++ " (line " ++ step.line.repr ++ ")") := rfl
  rw [hline, toList_outlineLine]
  simp [outlineText]

theorem Scenario.toList_outline (scenario : Scenario) :
    (scenario.outline 1).toList = scenario.outlineItems.flatMap line := by
  rw [outline, outlineItems, List.flatMap_cons, List.flatMap_append, flatMap_line_block,
    ← AnnotationSet.toList_outline, ← toList_outlineLine, List.isEmpty_map]
  split
  · simp
  · simp [String.toList_join, List.flatMap_map, Step.toList_outline]

theorem Document.toList_outline (document : Document) :
    document.outline.toList = document.outlineItems.flatMap line := by
  rw [outline, outlineItems, List.flatMap_cons, List.flatMap_append, List.flatMap_assoc,
    ← AnnotationSet.toList_outline, ← toList_outlineLine]
  simp [String.toList_join, List.flatMap_map, Scenario.toList_outline]

theorem AnnotationValue.quoted_inj {value other : AnnotationValue}
    (h : value.quoted = other.quoted) : value = other := by
  have hitems : Delimits fun items : List String =>
      Text.joined [',', ' '] (items.map fun item => Text.quoted item.toList) ++ [']'] :=
    Text.delimits_quoted.toList.joined (fun item => ⟨'"', _, rfl, by decide⟩) (by decide) [' ']
  cases value with
  | single text =>
      cases other with
      | single text' =>
          rw [(Text.delimits_quoted.toList (congrArg (· ++ []) h)).1]
      | list items' => exact absurd (List.cons.inj h).1 (by decide)
  | list items =>
      cases other with
      | single text' => exact absurd (List.cons.inj h).1 (by decide)
      | list items' => rw [(hitems (congrArg (· ++ []) (List.cons.inj h).2)).1]

/-- The key of an entry ends at the first blank. -/
theorem AnnotationSet.entryText_inj {entry other : String × AnnotationValue} (hkey : IsKey entry.1)
    (hother : IsKey other.1) (h : entryText entry = entryText other) : entry = other := by
  have hword {key : String} (hkey : IsKey key) : key.toList.all (!Text.isBlank ·) = true := by
    rw [List.all_eq_true]
    intro c hc
    rw [(hkey.2 c hc).1]
    rfl
  have hline := (List.cons.inj h).2
  rw [List.append_assoc, List.append_assoc] at hline
  obtain ⟨hkeys, hvalues⟩ := Text.append_cons_inj (by decide) (hword hkey) (hword hother) hline
  exact Prod.ext (String.toList_injective hkeys)
    (AnnotationValue.quoted_inj (List.append_cancel_left hvalues))

/-- The number of a step is read from the end, so its text may end in any way. -/
theorem Step.outlineText_inj {step other : Step} (h : step.outlineText = other.outlineText) :
    step = other := by
  have hdigits (n : Nat) : (Nat.toDigits 10 n).reverse.all Char.isDigit = true := by
    rw [List.all_eq_true]
    intro c hc
    exact Nat.isDigit_of_mem_toDigits (by decide) (by decide) (List.mem_reverse.mp hc)
  have hreverse (step : Step) : step.outlineText.reverse =
      ')' :: ((Nat.toDigits 10 step.line).reverse ++
        ' ' :: ("enil( ".toList ++ (step.text.toList.reverse ++ " -".toList))) := by
    simp [outlineText]
  have hsame := congrArg List.reverse h
  rw [hreverse, hreverse, List.cons.injEq] at hsame
  obtain ⟨hlines, htexts⟩ :=
    Text.append_cons_inj (by decide : Char.isDigit ' ' = false) (hdigits _) (hdigits _) hsame.2
  have hnumber : step.line = other.line :=
    calc
      step.line = Nat.ofDigitChars 10 (Nat.toDigits 10 step.line) 0 :=
        Nat.ofDigitChars_ten_toDigits.symm
      _ = Nat.ofDigitChars 10 (Nat.toDigits 10 other.line) 0 := by
        rw [List.reverse_injective hlines]
      _ = other.line := Nat.ofDigitChars_ten_toDigits
  have htext := List.append_cancel_right (List.append_cancel_left htexts)
  rw [Step.mk.injEq]
  exact ⟨String.toList_injective (List.reverse_injective htext), hnumber⟩

/-- Lists are told apart by texts that tell their members apart. -/
theorem map_inj_of_forall {α β : Type} {p : α → Prop} {f : α → β} {items others : List α}
    (hf : ∀ a b, p a → p b → f a = f b → a = b) (hitems : ∀ a ∈ items, p a)
    (hothers : ∀ a ∈ others, p a) (h : items.map f = others.map f) : items = others := by
  induction items generalizing others with
  | nil => exact (List.map_eq_nil_iff.mp h.symm).symm
  | cons a items ih =>
      cases others with
      | nil => cases h
      | cons b others =>
          rw [List.forall_mem_cons] at hitems hothers
          obtain ⟨hfirst, hmore⟩ := List.cons.inj h
          rw [hf a b hitems.1 hothers.1 hfirst, ih hitems.2 hothers.2 hmore]

theorem AnnotationSet.outlineItems_append_inj {set other : AnnotationSet} (hset : set.WellFormed)
    (hother : other.WellFormed) {depth : Nat} {rest behind : List OutlineItem}
    (hrest : EndsAbove depth rest) (hbehind : EndsAbove depth behind)
    (h : set.outlineItems depth ++ rest = other.outlineItems depth ++ behind) :
    set = other ∧ rest = behind := by
  obtain ⟨htexts, hsame⟩ := block_append_inj hrest hbehind h
  have hentries := map_inj_of_forall (p := fun entry => IsKey entry.1)
    (fun _ _ hfirst hsecond => entryText_inj hfirst hsecond) hset.isKey hother.isKey htexts
  rw [AnnotationSet.mk.injEq]
  exact ⟨hentries, hsame⟩

theorem endsAbove_scenarios (scenarios : List Scenario) :
    EndsAbove 1 (scenarios.flatMap Scenario.outlineItems) := by
  cases scenarios with
  | nil => rintro item ⟨⟩
  | cons scenario scenarios =>
      rintro item ⟨⟩
      exact Nat.le_refl 1

theorem Scenario.outlineItems_append_inj {scenario other : Scenario}
    (hscenario : scenario.WellFormed) (hother : other.WellFormed) {rest behind : List OutlineItem}
    (hrest : EndsAbove 1 rest) (hbehind : EndsAbove 1 behind)
    (h : scenario.outlineItems ++ rest = other.outlineItems ++ behind) :
    scenario = other ∧ rest = behind := by
  rw [outlineItems, outlineItems, List.cons_append, List.cons_append, List.append_assoc,
    List.append_assoc] at h
  obtain ⟨hname, hblocks⟩ := List.cons.inj h
  have hname := (OutlineItem.mk.inj hname).2
  rw [String.toList_append, String.toList_append] at hname
  obtain ⟨hannotations, hsteps⟩ := AnnotationSet.outlineItems_append_inj hscenario.annotations
    hother.annotations (endsAbove_block rest) (endsAbove_block behind) hblocks
  obtain ⟨htexts, hsame⟩ :=
    block_append_inj (hrest.mono (by decide)) (hbehind.mono (by decide)) hsteps
  have hsteps := List.map_injective_iff.mpr (fun _ _ => Step.outlineText_inj) htexts
  rw [Scenario.mk.injEq]
  exact ⟨⟨String.toList_injective (List.append_cancel_left hname), hannotations, hsteps⟩, hsame⟩

theorem scenarios_inj {scenarios others : List Scenario}
    (hscenarios : ∀ scenario ∈ scenarios, scenario.WellFormed)
    (hothers : ∀ scenario ∈ others, scenario.WellFormed)
    (h : scenarios.flatMap Scenario.outlineItems = others.flatMap Scenario.outlineItems) :
    scenarios = others := by
  induction scenarios generalizing others with
  | nil =>
      cases others with
      | nil => rfl
      | cons other others => cases h
  | cons scenario scenarios ih =>
      cases others with
      | nil => cases h
      | cons other others =>
          rw [List.forall_mem_cons] at hscenarios hothers
          rw [List.flatMap_cons, List.flatMap_cons] at h
          obtain ⟨rfl, hmore⟩ := Scenario.outlineItems_append_inj hscenarios.1 hothers.1
            (endsAbove_scenarios scenarios) (endsAbove_scenarios others) h
          rw [ih hscenarios.2 hothers.2 hmore]

theorem Document.outlineItems_inj {document other : Document} (hdocument : document.WellFormed)
    (hother : other.WellFormed) (h : document.outlineItems = other.outlineItems) :
    document = other := by
  obtain ⟨hfeature, hrest⟩ := List.cons.inj h
  have hfeature := (OutlineItem.mk.inj hfeature).2
  rw [String.toList_append, String.toList_append] at hfeature
  obtain ⟨hannotations, hscenarios⟩ := AnnotationSet.outlineItems_append_inj hdocument.annotations
    hother.annotations (endsAbove_scenarios _) (endsAbove_scenarios _) hrest
  rw [Document.mk.injEq]
  exact ⟨String.toList_injective (List.append_cancel_left hfeature), hannotations,
    scenarios_inj hdocument.scenarios hother.scenarios hscenarios⟩

theorem AnnotationValue.newline_notMem_quoted (value : AnnotationValue) : '\n' ∉ value.quoted := by
  cases value with
  | single text => exact Text.newline_notMem_quoted text.toList
  | list items =>
      have hitems :
          '\n' ∉ Text.joined [',', ' '] (items.map fun item => Text.quoted item.toList) := by
        intro hmem
        rcases Text.mem_joined hmem with hseparator | ⟨piece, hpiece, hmem⟩
        · exact absurd hseparator (by decide)
        · obtain ⟨item, -, rfl⟩ := List.mem_map.mp hpiece
          exact Text.newline_notMem_quoted item.toList hmem
      simp [quoted, hitems]

theorem IsKey.newline_notMem {key : String} (h : IsKey key) : '\n' ∉ key.toList :=
  fun hmem => absurd (h.2 _ hmem).1 (by decide)

theorem AnnotationSet.fitsLine_outlineItems {set : AnnotationSet} (h : set.WellFormed)
    (depth : Nat) : ∀ item ∈ set.outlineItems depth, FitsLine item.text := by
  apply fitsLine_of_mem_block (by decide)
  rw [List.forall_mem_map]
  intro entry hentry
  have hat : FitsLine ['@'] := by decide
  have hkey := (h.isKey entry hentry).newline_notMem
  exact hat.append (List.not_mem_append (List.not_mem_append hkey (by decide))
    entry.2.newline_notMem_quoted)

theorem Step.fitsLine_outlineText {step : Step} (h : IsStepText step.text) :
    FitsLine step.outlineText := by
  have hdash : FitsLine "- ".toList := by decide
  have hdigits : '\n' ∉ Nat.toDigits 10 step.line := fun hmem =>
    absurd (Nat.isDigit_of_mem_toDigits (by decide) (by decide) hmem) (by decide)
  exact (((hdash.append h.2.1).append (by decide)).append hdigits).append (by decide)

theorem Scenario.fitsLine_outlineItems {scenario : Scenario} (h : scenario.WellFormed) :
    ∀ item ∈ scenario.outlineItems, FitsLine item.text := by
  have hword : FitsLine "Scenario: ".toList := by decide
  rw [outlineItems, List.forall_mem_cons, List.forall_mem_append, String.toList_append]
  refine ⟨hword.append h.isName.1, AnnotationSet.fitsLine_outlineItems h.annotations 2, ?_⟩
  apply fitsLine_of_mem_block (by decide)
  rw [List.forall_mem_map]
  exact fun step hstep => Step.fitsLine_outlineText (h.isStepText step hstep)

theorem Document.fitsLine_outlineItems {document : Document} (h : document.WellFormed) :
    ∀ item ∈ document.outlineItems, FitsLine item.text := by
  have hword : FitsLine "Feature: ".toList := by decide
  rw [outlineItems, List.forall_mem_cons, List.forall_mem_append, String.toList_append]
  refine ⟨hword.append h.isName.1, AnnotationSet.fitsLine_outlineItems h.annotations 1, ?_⟩
  intro item hitem
  obtain ⟨scenario, hscenario, hitem⟩ := List.mem_flatMap.mp hitem
  exact Scenario.fitsLine_outlineItems (h.scenarios scenario hscenario) item hitem

/-- Two feature files have the same outline only if they say the same document: the same names, the
same annotations in the same order and of the same kind, and the same steps, each with all of its
text and the number of its line. -/
theorem Document.outline_eq_outline_iff {text text' : String} {document document' : Document}
    (h : parse text = .ok document) (h' : parse text' = .ok document') :
    document.outline = document'.outline ↔ document = document' := by
  have hdocument := wellFormed_of_parse h
  have hdocument' := wellFormed_of_parse h'
  constructor
  · intro houtline
    have hlines := congrArg String.toList houtline
    rw [toList_outline, toList_outline] at hlines
    have hitems := flatMap_line_inj (fitsLine_outlineItems hdocument)
      (fitsLine_outlineItems hdocument') hlines
    exact outlineItems_inj hdocument hdocument' hitems
  · rintro rfl
    rfl

/-- A step that imitates the number of another line, and a text that imitates a list. -/
theorem Document.outline_ne_outline_imitations :
    parse "@k=\"a\", \"b\"\nFeature: F\nScenario: S\na (line 5)\n" =
        .ok ⟨"F", .ofEntries [("k", .single "a\", \"b")], [⟨"S", ∅, [⟨"a (line 5)", 4⟩]⟩]⟩ ∧
      parse "@k=a,b\nFeature: F\nScenario: S\n\na\n" =
        .ok ⟨"F", .ofEntries [("k", .list ["a", "b"])], [⟨"S", ∅, [⟨"a", 5⟩]⟩]⟩ ∧
      outline ⟨"F", .ofEntries [("k", .single "a\", \"b")], [⟨"S", ∅, [⟨"a (line 5)", 4⟩]⟩]⟩ ≠
        outline ⟨"F", .ofEntries [("k", .list ["a", "b"])], [⟨"S", ∅, [⟨"a", 5⟩]⟩]⟩ := by
  have h : parse "@k=\"a\", \"b\"\nFeature: F\nScenario: S\na (line 5)\n" =
      .ok ⟨"F", .ofEntries [("k", .single "a\", \"b")], [⟨"S", ∅, [⟨"a (line 5)", 4⟩]⟩]⟩ := by
    with_unfolding_all rfl
  have h' : parse "@k=a,b\nFeature: F\nScenario: S\n\na\n" =
      .ok ⟨"F", .ofEntries [("k", .list ["a", "b"])], [⟨"S", ∅, [⟨"a", 5⟩]⟩]⟩ := by
    with_unfolding_all rfl
  refine ⟨h, h', ?_⟩
  intro houtline
  exact absurd ((outline_eq_outline_iff h h').mp houtline) (by decide)

end FeatureCompiler
