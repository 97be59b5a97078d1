import FeatureCompiler.Proofs.Build.Places
import FeatureCompiler.Proofs.Path.Order
import Mathlib.Data.List.Pairwise

/-!
Output paths mirror source paths. The module of a feature file stands in the same directories below
the output directory as the file below the source directory, and has its stem. The one name for
which this fails is the one whose stem is a dot: its module goes to the directory above. Even so, no
two sources share an output path.
-/

namespace FeatureCompiler

namespace Path

/-- Whether bytes can be the extension of a file. -/
def IsExtension (extension : Bytes) : Prop :=
  extension ≠ [] ∧ dot ∉ extension ∧ slash ∉ extension

instance (extension : Bytes) : Decidable (IsExtension extension) :=
  inferInstanceAs (Decidable (_ ∧ _ ∧ _))

/-- Whether a file can have this stem. -/
def IsStem (stem : Bytes) : Prop :=
  stem ≠ [] ∧ slash ∉ stem

instance (stem : Bytes) : Decidable (IsStem stem) :=
  inferInstanceAs (Decidable (_ ∧ _))

/-- The path of a file below a base, by the directories that lead to it and by its stem and
extension. -/
def fileBelow (base : Path) (directories : Location) (stem extension : Bytes) : Path :=
  (base.below directories).join ⟨stem ++ dot :: extension⟩

section

variable (base : Path) (directories : Location) {stem extension : Bytes}

/-- The name of a file with this stem and this extension. -/
def fileNameOf (hstem : IsStem stem) (hextension : IsExtension extension) : Name where
  bytes := stem ++ dot :: extension
  isName := by
    refine ⟨isSolid_dotted hstem.1 _, ?_, ?_⟩
    · intro hup
      exact hextension.1 ((dotted_eq_up_iff hstem.1).mp hup).2
    · simp [hstem.2, hextension.2.2]

theorem fileBelow_eq_below (hstem : IsStem stem) (hextension : IsExtension extension) :
    base.fileBelow directories stem extension =
      base.below (directories ++ [fileNameOf hstem hextension]) := by
  rw [below, List.foldl_append]
  rfl

theorem extension?_fileBelow (hstem : IsStem stem) (hextension : IsExtension extension) :
    (base.fileBelow directories stem extension).extension? = some extension := by
  rw [fileBelow_eq_below base directories hstem hextension, base.extension?_below_concat,
    fileNameOf, splitName_append hstem.1 hextension.2.1]

/-- The spelling of a path ends in the last name of its place, and nothing before depends on that
name. -/
theorem exists_bytes_below_concat :
    ∃ before, ∀ name : Name,
      (base.below (directories ++ [name])).bytes = before ++ name.bytes := by
  refine ⟨front base.bytes ++ Text.joined [slash] (directories.map Name.bytes ++ [[]]), ?_⟩
  intro name
  rw [below_eq_join base (by simp), bytes_join (lead_ofPlace _), bytes_ofPlace,
    List.map_append, List.map_singleton, List.append_assoc,
    ← Text.joined_concat_append [slash] _ [] name.bytes, List.nil_append]

theorem withExtension_fileBelow (hstem : IsStem stem) (hdot : stem ≠ [dot])
    {old : Bytes} (hold : IsExtension old) (hextension : IsExtension extension) :
    (base.fileBelow directories stem old).withExtension extension =
      base.fileBelow directories stem extension := by
  obtain ⟨before, hspelled⟩ := base.exists_bytes_below_concat directories
  rw [fileBelow_eq_below base directories hstem hold,
    fileBelow_eq_below base directories hstem hextension]
  have hname : (fileNameOf hstem hold).bytes = stem ++ dot :: old := rfl
  generalize fileNameOf hstem hold = name at hname
  have hbefore := hspelled name
  obtain ⟨init, hsegments⟩ := base.segments_below_concat directories name
  rw [hname] at hsegments hbefore
  -- both spellings of the path have the same bytes before its last piece
  rw [← ofSegments_lead_segments (base.below _), hsegments, ← List.nil_append (stem ++ _),
    bytes_ofSegments_concat_append, List.nil_append] at hbefore
  apply Path.ext
  rw [withExtension_of_segments hsegments hstem.1 hold.1 hold.2.1, if_neg hdot,
    ← List.nil_append (stem ++ dot :: extension), bytes_ofSegments_concat_append, hspelled]
  exact congrArg (· ++ _) (List.append_cancel_right hbefore)

end

end Path

namespace Disk

variable {disk : Disk} {options : BuildOptions} {sources : List Path}

/-- What a walk finds below its start are files with the extension of feature files. -/
theorem exists_fileBelow_of_discover {source : Path}
    (hsources : disk.discover source = .ok sources) {file : Path} (hfile : file ∈ sources)
    (hbelow : file ≠ source) :
    ∃ directories stem, Path.IsStem stem ∧
      file = source.fileBelow directories stem "feature" := by
  obtain ⟨start, node, -, hget, -, rfl⟩ := discover_eq_ok hsources
  obtain ⟨hmapped, hfeature⟩ := List.mem_filter.mp hfile
  obtain ⟨place, hplace, rfl⟩ := List.mem_map.mp hmapped
  have hne : place ≠ [] := by
    rintro rfl
    exact hbelow rfl
  have hsource : (⟨source, ⟨[]⟩, [], false⟩ : BuildOptions).IsSource place := ⟨hne, hfeature⟩
  obtain ⟨directories, name, stem, rfl, hstem, hname⟩ := hsource.exists_stem
  have hslash : Path.slash ∉ stem := by
    intro h
    apply name.isName.2.2
    rw [hname]
    exact List.mem_append_left _ h
  refine ⟨directories, stem, ⟨hstem, hslash⟩, ?_⟩
  rw [Path.fileBelow, ← hname, Path.below, List.foldl_append]
  rfl

/-- The sources below the source directory are files with a stem, and each has its module in the
same directories below the output directory, with the same stem and the extension of a script. A
stem that is a single dot is the exception: with two dots for its name, the module takes the place
of the directory above. -/
theorem outputPath_mirrors_source (hsources : disk.discover options.source = .ok sources) :
    (∀ file ∈ sources, file ≠ options.source → ∃ directories stem,
      Path.IsStem stem ∧
        file = options.source.fileBelow directories stem "feature") ∧
    ∀ directories stem, Path.IsStem stem →
      (stem ≠ [Path.dot] →
        options.outputPath (options.source.fileBelow directories stem "feature") =
          options.output.fileBelow directories stem "js" ∧
        (options.output.fileBelow directories stem "js").components =
          options.output.components ++ directories.map (fun name => .name name.bytes) ++
            [.name (stem ++ Text.bytes ".js")] ∧
        (options.output.fileBelow directories stem "js").extension? = some (Text.bytes "js")) ∧
      (stem = [Path.dot] →
        (options.outputPath (options.source.fileBelow directories stem "feature")).components =
          options.output.components ++ directories.map (fun name => .name name.bytes) ++
            [.up]) := by
  refine ⟨fun file => exists_fileBelow_of_discover hsources, ?_⟩
  intro directories stem hstem
  obtain ⟨start, node, hstart, -⟩ := discover_eq_ok hsources
  have hsource : options.source.isEmpty = false := isEmpty_of_locate hstart
  have hfeature : Path.IsExtension (Text.bytes "feature") := by decide
  have hbelow := options.source.fileBelow_eq_below directories hstem hfeature
  have hcomponents := options.components_outputPath hsource directories hstem.1
    (show (Path.fileNameOf hstem hfeature).bytes = _ from rfl)
  rw [moduleComponent] at hcomponents
  constructor
  · intro hdot
    have hmirror : options.outputPath (options.source.fileBelow directories stem "feature") =
        options.output.fileBelow directories stem "js" := by
      rw [hbelow, options.outputPath_below hsource (by simp), ← Path.fileBelow_eq_below]
      exact options.output.withExtension_fileBelow directories hstem hdot hfeature (by decide)
    refine ⟨hmirror, ?_, options.output.extension?_fileBelow directories hstem (by decide)⟩
    rw [if_neg hdot] at hcomponents
    rw [← hmirror, hbelow]
    exact hcomponents
  · intro hdot
    rw [if_pos hdot] at hcomponents
    rw [hbelow]
    exact hcomponents

/-- Names with dots in all places: stems of dots, a stem that ends in one, and directories with the
names of modules. -/
def dottedNamesDisk : Disk where
  root := .directory [(.ofText "src", .directory [(.ofText "...feature", .file (.text "")),
    (.ofText "..feature", .file (.text "")),
    (.ofText "a", .directory [(.ofText "..feature", .file (.text ""))]),
    (.ofText "a.feature", .file (.text "")),
    (.ofText "a.js", .directory [(.ofText "b.c..feature", .file (.text ""))])])]
  workingDirectory := []

def dottedNamesOptions : BuildOptions :=
  ⟨⟨"./src//"⟩, ⟨"out/./x/"⟩, [], false⟩

def dottedNamesSources : List Path :=
  [⟨"./src//...feature"⟩, ⟨"./src//..feature"⟩, ⟨"./src//a/..feature"⟩, ⟨"./src//a.feature"⟩,
    ⟨"./src//a.js/b.c..feature"⟩]

theorem discover_dottedNamesDisk :
    dottedNamesDisk.discover dottedNamesOptions.source = .ok dottedNamesSources := by
  with_unfolding_all rfl

theorem outputPath_mirrors_dottedNames :
    dottedNamesDisk.discover dottedNamesOptions.source = .ok dottedNamesSources ∧
      ⟨"./src//a.js/b.c..feature"⟩ =
        dottedNamesOptions.source.fileBelow [.ofText "a.js"] "b.c." "feature" ∧
      dottedNamesOptions.outputPath
          (dottedNamesOptions.source.fileBelow [.ofText "a.js"] "b.c." "feature") =
        dottedNamesOptions.output.fileBelow [.ofText "a.js"] "b.c." "js" ∧
      (dottedNamesOptions.outputPath
          (dottedNamesOptions.source.fileBelow [.ofText "a"] "." "feature")).components =
        dottedNamesOptions.output.components ++ [.name "a", .up] := by
  obtain ⟨-, hmirrors⟩ := outputPath_mirrors_source discover_dottedNamesDisk
  have hplain : Path.IsStem "b.c." := by decide
  have hdot : Path.IsStem "." := by decide
  exact ⟨discover_dottedNamesDisk, rfl, ((hmirrors _ _ hplain).1 (by decide)).1,
    (hmirrors _ _ hdot).2 rfl⟩

def dotStemDisk : Disk where
  root := .directory [(.ofText "src",
    .directory [(.ofText "..feature", .file (.text "Feature: T\n"))])]
  workingDirectory := []

def dotStemOptions : BuildOptions :=
  ⟨⟨"src"⟩, ⟨"out"⟩, [], true⟩

/-- The module of a source with a dot for its stem would go to the output directory's own parent. -/
theorem outputPath_dotStem_leads_up :
    dotStemDisk.discover dotStemOptions.source =
        .ok [dotStemOptions.source.fileBelow [] "." "feature"] ∧
      dotStemOptions.outputPath (dotStemOptions.source.fileBelow [] "." "feature") =
        ⟨"out/.."⟩ ∧
      Path.same ⟨"out/.."⟩ (dotStemOptions.output.fileBelow [] "." "js") = false ∧
      Path.extension? ⟨"out/.."⟩ = none := by
  refine ⟨?_, ?_, by decide, by decide⟩
  · with_unfolding_all rfl
  · with_unfolding_all rfl

/-- Different sources have different output paths, however these are spelled. -/
theorem outputPath_same_eq_false
    (hsources : disk.discover options.source = .ok sources) {first second : Path}
    (hfirst : first ∈ sources) (hsecond : second ∈ sources) (hne : first ≠ second) :
    (options.outputPath first).same (options.outputPath second) = false := by
  have hsymm : Std.Symm fun first second =>
      (options.outputPath first).same (options.outputPath second) = false := by
    constructor
    intro first second h
    rw [Path.same_comm]
    exact h
  exact (pairwise_outputPath_of_discover hsources).forall hfirst hsecond hne

theorem outputPath_same_dottedNames :
    dottedNamesDisk.discover dottedNamesOptions.source = .ok dottedNamesSources ∧
      dottedNamesOptions.outputPath ⟨"./src//..feature"⟩ = ⟨"out/./x/.."⟩ ∧
      dottedNamesOptions.outputPath ⟨"./src//a/..feature"⟩ = ⟨"out/./x/a/.."⟩ ∧
      (dottedNamesOptions.outputPath ⟨"./src//..feature"⟩).same
        (dottedNamesOptions.outputPath ⟨"./src//a/..feature"⟩) = false := by
  refine ⟨discover_dottedNamesDisk, ?_, ?_, ?_⟩
  · with_unfolding_all rfl
  · with_unfolding_all rfl
  · exact outputPath_same_eq_false discover_dottedNamesDisk (by decide) (by decide)
      (by decide)

end Disk

end FeatureCompiler
