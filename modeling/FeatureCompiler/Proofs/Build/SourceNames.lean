import FeatureCompiler.Proofs.Build.Composition
import FeatureCompiler.Proofs.Path.Characters
import FeatureCompiler.Proofs.TestModule.Values
import FeatureCompiler.Proofs.Text.Utf8

/-!
The name of a feature file in its module. It stands in the comment with which the module starts, and
there it ends at the first line feed of the name. So a name without line feeds has no part in the
tokens of the module, and of any other name that part is read as code which follows its first line.
-/

namespace FeatureCompiler

/-- A line feed in the name of a file is one of its path. -/
theorem BuildOptions.newline_mem_of_mem_sourceName {options : BuildOptions} {file : Path}
    (h : '\n' ∈ (options.sourceName file).toList) : 0x0a ∈ file.bytes := by
  have hkept {bytes : Bytes} (hmem : 0x0a = Path.slash ∨ 0x0a = Path.dot ∨ 0x0a ∈ bytes) :
      0x0a ∈ bytes :=
    (hmem.resolve_left (by decide)).resolve_left (by decide)
  have hpath (path : Path) (hname : '\n' ∈ (Path.slashed path.components).toList) :
      0x0a ∈ path.bytes := by
    rw [Path.slashed, String.toList_ofList] at hname
    obtain hslash | ⟨piece, hpiece, hmem⟩ := Text.mem_joined hname
    · exact absurd hslash (by decide)
    · obtain ⟨component, hcomponent, rfl⟩ := List.mem_map.mp hpiece
      have hbyte := (Text.mem_lossy_iff (by decide)).mp hmem
      exact hkept (Path.mem_bytes_of_mem_components hcomponent hbyte)
  have hrelative := hpath _ h
  cases hrest : file.stripBase? options.source with
  | none => rwa [hrest] at hrelative
  | some rest =>
      rw [hrest] at hrelative
      exact hkept (Path.mem_bytes_of_stripBase? hrest hrelative)

/-- The comment ends at the first line feed of the name, and all that follows is read as code. -/
theorem TestPlan.tokens_render_of_newline (plan : TestPlan) {source : String}
    {first rest : List Char} (hsource : source.toList = first ++ '\n' :: rest)
    (hfirst : '\n' ∉ first) (specifiers : List String) :
    Script.tokens (plan.render source specifiers).toList =
      Script.tokens (rest ++ (". Do not edit.\n" ++ plan.renderBody specifiers).toList) := by
  have hcomment : '\n' ∉ " Generated from ".toList ++ first := by
    rw [List.mem_append, not_or]
    exact ⟨by decide, hfirst⟩
  have htrivia : Script.IsTrivia ('/' :: '/' :: (" Generated from ".toList ++ first ++ ['\n'])) :=
    .lineComment hcomment .nil
  have htext : (plan.render source specifiers).toList =
      '/' :: '/' :: (" Generated from ".toList ++ first ++ ['\n']) ++
        (rest ++ (". Do not edit.\n" ++ plan.renderBody specifiers).toList) := by
    simp [plan.render_eq_header_append, hsource]
  rw [htext]
  exact Script.tokens_congr (htrivia.skip _)

namespace BuildOptions

theorem exists_plan_of_compileText {options : BuildOptions} {file : Path} {text : String}
    {lookup : Lookup} {specifiers : List String} {javascript : String}
    (h : options.compileText file text lookup specifiers = .ok javascript) :
    ∃ document plan, Document.parse text = .ok document ∧ document.plan lookup = .ok plan ∧
      javascript = plan.render (options.sourceName file) specifiers := by
  simp only [compileText, bind_eq_ok_iff, mapError_eq_ok_iff] at h
  obtain ⟨document, hdocument, plan, hplan, hjavascript⟩ := h
  exact ⟨document, plan, hdocument, hplan, (Except.ok.inj hjavascript).symm⟩

/-- Two files with the same text give modules with the same tokens if their names have no line feed,
and only a path with a line feed has such a name. The tokens are then those of the plan. Of a name
with line feeds all that follows the first is read at the beginning of the module. -/
theorem compileText_name_confined {options : BuildOptions} {file other : Path} {text : String}
    {lookup : Lookup} {specifiers : List String} {javascript otherJavascript : String}
    (h : options.compileText file text lookup specifiers = .ok javascript)
    (hother : options.compileText other text lookup specifiers = .ok otherJavascript) :
    ('\n' ∉ (options.sourceName file).toList → '\n' ∉ (options.sourceName other).toList →
      Script.tokens javascript.toList = Script.tokens otherJavascript.toList) ∧
    ('\n' ∈ (options.sourceName file).toList → 0x0a ∈ file.bytes) ∧
    ∃ document plan, Document.parse text = .ok document ∧ document.plan lookup = .ok plan ∧
      ('\n' ∉ (options.sourceName file).toList →
        Script.tokens javascript.toList = .ok (plan.shape.skeleton specifiers.length)) ∧
      ∀ first rest, (options.sourceName file).toList = first ++ '\n' :: rest → '\n' ∉ first →
        Script.tokens javascript.toList =
          Script.tokens (rest ++ (". Do not edit.\n" ++ plan.renderBody specifiers).toList) := by
  obtain ⟨document, plan, hdocument, hplan, rfl⟩ := exists_plan_of_compileText h
  obtain ⟨otherDocument, otherPlan, hotherDocument, hotherPlan, rfl⟩ :=
    exists_plan_of_compileText hother
  obtain rfl : document = otherDocument := Except.ok.inj (hdocument.symm.trans hotherDocument)
  obtain rfl : plan = otherPlan := Except.ok.inj (hplan.symm.trans hotherPlan)
  refine ⟨fun hname hotherName => ?_, newline_mem_of_mem_sourceName, document, plan, hdocument,
    hplan, fun hname => ?_, fun first rest hname hfirst => ?_⟩
  · rw [(plan.spells_render hname specifiers).tokens_eq,
      (plan.spells_render hotherName specifiers).tokens_eq]
  · exact (plan.spells_render hname specifiers).tokens_eq
  · exact plan.tokens_render_of_newline hname hfirst specifiers

def namedOptions : BuildOptions :=
  ⟨⟨"src"⟩, ⟨"out"⟩, [], false⟩

/-- The plan for a feature without scenarios. -/
def barePlan : TestPlan :=
  ⟨"F", none, []⟩

theorem compileText_bareFeature (file : Path) :
    namedOptions.compileText file "Feature: F\n" Catalog.empty.lookup [] =
      .ok (barePlan.render (namedOptions.sourceName file) []) := by
  have hdocument : Document.parse "Feature: F\n" = .ok ⟨"F", ∅, []⟩ := by decide
  have hplan : Document.plan ⟨"F", ∅, []⟩ Catalog.empty.lookup = .ok barePlan := rfl
  rw [compileText, hdocument]
  simp only [Except.mapError, ok_bind, hplan]
  rfl

/-- Quotes, comment marks and blanks in a name do no harm. -/
theorem compileText_name_confined_commentMarks :
    namedOptions.compileText ⟨"src/*/'`.feature"⟩ "Feature: F\n" Catalog.empty.lookup [] =
      .ok (barePlan.render "*/'`.feature" []) ∧
    namedOptions.compileText ⟨"src/t.feature"⟩ "Feature: F\n" Catalog.empty.lookup [] =
      .ok (barePlan.render "t.feature" []) ∧
    '\n' ∉ "*/'`.feature".toList ∧ '\n' ∉ "t.feature".toList ∧
    Script.tokens (barePlan.render "*/'`.feature" []).toList =
      Script.tokens (barePlan.render "t.feature" []).toList := by
  have hmarks := compileText_bareFeature ⟨"src/*/'`.feature"⟩
  have hplain := compileText_bareFeature ⟨"src/t.feature"⟩
  have hmarksName : namedOptions.sourceName ⟨"src/*/'`.feature"⟩ = "*/'`.feature" := by decide
  have hplainName : namedOptions.sourceName ⟨"src/t.feature"⟩ = "t.feature" := by decide
  have hsame := (compileText_name_confined hmarks hplain).1
  rw [hmarksName] at hmarks hsame
  rw [hplainName] at hplain hsame
  exact ⟨hmarks, hplain, by decide, by decide, hsame (by decide) (by decide)⟩

/-- The second line of this name becomes code in front of the module. -/
theorem compileText_newline_leaks :
    namedOptions.compileText ⟨"src/a\nb.feature"⟩ "Feature: F\n" Catalog.empty.lookup [] =
      .ok (barePlan.render "a\nb.feature" []) ∧
    namedOptions.compileText ⟨"src/t.feature"⟩ "Feature: F\n" Catalog.empty.lookup [] =
      .ok (barePlan.render "t.feature" []) ∧
    Script.tokens (barePlan.render "t.feature" []).toList = .ok (barePlan.shape.skeleton 0) ∧
    Script.tokens (barePlan.render "a\nb.feature" []).toList =
      .ok ([.word "b", .mark '.', .word "feature", .mark '.', .word "Do", .word "not",
        .word "edit", .mark '.'] ++ barePlan.shape.skeleton 0) := by
  have hleaking := compileText_bareFeature ⟨"src/a\nb.feature"⟩
  have hplain := compileText_bareFeature ⟨"src/t.feature"⟩
  have hleakingName : namedOptions.sourceName ⟨"src/a\nb.feature"⟩ = "a\nb.feature" := by decide
  have hplainName : namedOptions.sourceName ⟨"src/t.feature"⟩ = "t.feature" := by decide
  rw [hleakingName] at hleaking
  rw [hplainName] at hplain
  refine ⟨hleaking, hplain, (barePlan.spells_render (by decide) []).tokens_eq, ?_⟩
  have hname : "a\nb.feature".toList = ['a'] ++ '\n' :: "b.feature".toList := by decide
  have hleak : Script.Spells ("b.feature" ++ ". Do not edit.\n").toList
      [.word "b", .mark '.', .word "feature", .mark '.', .word "Do", .word "not",
        .word "edit", .mark '.'] :=
    .plain (by decide +kernel)
  have hmodule := hleak.append (barePlan.spells_renderBody [])
  rw [String.toList_append, List.append_assoc, ← String.toList_append] at hmodule
  rw [barePlan.tokens_render_of_newline hname (by decide)]
  exact hmodule.tokens_eq

end BuildOptions

end FeatureCompiler
