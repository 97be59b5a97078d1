import FeatureCompiler.Proofs.Build.OnDisk
import Mathlib.Data.List.Pairwise

/-!
What a build leaves alone. Whether or not it succeeds, a build changes no file but those whose
modules it stores, and these it writes as a whole. Files and directories stay, and a directory that
is new is above a module.
-/

namespace FeatureCompiler.BuildOptions

variable {options : BuildOptions} {catalog : Catalog} {disk : Disk} {sources : List Path}

/-- The modules that a build writes to the disk. -/
def stored (options : BuildOptions) (disk : Disk) : List GeneratedFile :=
  match options.inputs disk with
  | .error _ => []
  | .ok (catalog, sources) => (options.buildFiles Store.onDisk catalog disk sources).files

/-- Whether a module is that of a source as the build finds it. -/
def Compiles (options : BuildOptions) (disk : Disk) (generated : GeneratedFile) : Prop :=
  ∃ catalog sources, options.inputs disk = .ok (catalog, sources) ∧ generated.source ∈ sources ∧
    options.compileFile disk catalog generated.source = .ok generated

/-- Whether a source does not compile, or the build reports that its module cannot be written. -/
def Fails (options : BuildOptions) (disk : Disk) (file : Path) : Prop :=
  ∃ catalog sources, options.inputs disk = .ok (catalog, sources) ∧ file ∈ sources ∧
    ((∃ error, options.compileFile disk catalog file = .error error) ∨
      ∃ fault, .outputWrite (options.outputPath file) fault ∈
        reportedErrors (options.build Store.onDisk disk).1)

theorem stored_of_inputs_error {error : CompileError} (h : options.inputs disk = .error error) :
    options.stored disk = [] := by
  rw [stored, h]

theorem stored_of_inputs_ok (h : options.inputs disk = .ok (catalog, sources)) :
    options.stored disk = (options.buildFiles Store.onDisk catalog disk sources).files := by
  rw [stored, h]

/-- What a whole build does to the disk. -/
theorem growsBy_build (options : BuildOptions) (disk : Disk) :
    Disk.GrowsBy
      (fun above => ∃ generated, options.Compiles disk generated ∧
        above.IsAncestor generated.output)
      ((options.stored disk).map GeneratedFile.asFile) disk
      (options.build Store.onDisk disk).2 := by
  cases hinputs : options.inputs disk with
  | error error =>
      rw [build_of_inputs_error Store.onDisk hinputs]
      exact .refl _ _ _
  | ok found =>
      obtain ⟨catalog, sources⟩ := found
      rw [build_of_inputs_ok Store.onDisk hinputs, stored_of_inputs_ok hinputs]
      obtain ⟨-, hgrows⟩ :=
        growsBy_buildFiles options catalog (present_of_inputs hinputs).1
      refine hgrows.mono ?_ (List.Subset.refl _)
      rintro above ⟨file, hfile, generated, hcompiled, habove⟩
      obtain rfl := source_of_compileFile hcompiled
      exact ⟨generated, ⟨catalog, sources, hinputs, hfile, hcompiled⟩, habove⟩

/-- The modules that a build stores are those of sources, and all of each is on the disk. -/
theorem holds_of_stored {generated : GeneratedFile} (h : generated ∈ options.stored disk) :
    options.Compiles disk generated ∧ (options.build Store.onDisk disk).2.Holds generated.output
      (.text generated.javascript) := by
  cases hinputs : options.inputs disk with
  | error error =>
      rw [stored_of_inputs_error hinputs] at h
      cases h
  | ok found =>
      obtain ⟨catalog, sources⟩ := found
      rw [stored_of_inputs_ok hinputs] at h
      rw [build_of_inputs_ok Store.onDisk hinputs]
      obtain ⟨hpresent, hapart⟩ := present_of_inputs hinputs
      obtain ⟨hcompiled, -⟩ := growsBy_buildFiles options catalog hpresent
      obtain ⟨hsource, hok⟩ := hcompiled generated h
      exact ⟨⟨catalog, sources, hinputs, hsource, hok⟩,
        holds_of_buildFiles options catalog hpresent hapart generated h⟩

/-- A module that cannot be written is not among those that are stored. -/
theorem not_stored_of_outputWrite (hdistinct : (sources.map options.outputPath).Nodup)
    {path : Path} {fault : DiskFault}
    (h : .outputWrite path fault ∈
      (options.buildFiles Store.onDisk catalog disk sources).errors) :
    path ∉ (options.buildFiles Store.onDisk catalog disk sources).files.map
      GeneratedFile.output := by
  induction sources generalizing disk with
  | nil => cases h
  | cons file rest ih =>
      obtain ⟨hfirst, hrest⟩ := List.nodup_cons.mp hdistinct
      cases hbuilt : options.buildFile Store.onDisk catalog disk file with
      | mk outcome later =>
          have hpaths := (outputs_sublist options Store.onDisk catalog later rest).subset
          obtain ⟨herrors, -⟩ := errors_of_buildFiles options Store.onDisk catalog later rest
          cases outcome with
          | ok generated =>
              rw [buildFiles_cons_of_ok hbuilt] at h ⊢
              rw [List.map_cons, List.mem_cons, not_or,
                output_of_compileFile (compileFile_of_buildFile_ok hbuilt)]
              refine ⟨?_, ih hrest h⟩
              intro hpath
              exact hfirst (hpath ▸ (herrors (.outputWrite path fault) h).2 path fault rfl)
          | error error =>
              rw [buildFiles_cons_of_error hbuilt] at h ⊢
              by_cases hstrict : options.strict = true
              · rw [if_pos hstrict]
                exact List.not_mem_nil
              · rw [if_neg hstrict] at h ⊢
                rcases List.mem_cons.mp h with rfl | hlater
                · rw [(parts_of_buildFile_error hbuilt).2 _ _ rfl]
                  exact fun hmem => hfirst (hpaths hmem)
                · exact ih hrest hlater

theorem nodup_outputPath (hinputs : options.inputs disk = .ok (catalog, sources)) :
    (sources.map options.outputPath).Nodup := by
  obtain ⟨-, hsources⟩ := inputs_eq_ok_iff.mp hinputs
  rw [List.Nodup, List.pairwise_map]
  refine (Disk.pairwise_outputPath_of_discover hsources).imp ?_
  intro first second hdistinct hsame
  rw [hsame, Path.same, decide_eq_false_iff_not] at hdistinct
  exact hdistinct rfl

/-- The module of a source that fails is not among those that are stored. -/
theorem source_ne_of_fails {file : Path}
    (hfails : options.Fails disk file) {generated : GeneratedFile}
    (hstored : generated ∈ options.stored disk) : generated.source ≠ file := by
  rintro rfl
  obtain ⟨catalog, sources, hinputs, -, hfails⟩ := hfails
  obtain ⟨⟨_, _, hsame, -, hcompiled⟩, -⟩ := holds_of_stored hstored
  cases hinputs.symm.trans hsame
  rcases hfails with ⟨error, herror⟩ | ⟨fault, hreported⟩
  · cases hcompiled.symm.trans herror
  · rw [build_of_inputs_ok Store.onDisk hinputs, reportedErrors_outcome] at hreported
    rw [stored_of_inputs_ok hinputs] at hstored
    refine not_stored_of_outputWrite (nodup_outputPath hinputs) hreported ?_
    rw [← output_of_compileFile hcompiled]
    exact List.mem_map_of_mem hstored

/-- No module that is stored goes where the module of a source that fails would go. -/
theorem locate_ne_of_fails {file : Path}
    (hfails : options.Fails disk file) {place : Location} {contents : Contents}
    (hplace : disk.locate (options.outputPath file) = .ok place)
    (hentry : disk.root.entryAt? place = some (.file contents)) {generated : GeneratedFile}
    (hstored : generated ∈ options.stored disk) :
    (options.build Store.onDisk disk).2.locate generated.output ≠ .ok place := by
  intro hsame
  have hne := source_ne_of_fails hfails hstored
  obtain ⟨catalog, sources, hinputs, hfile, -⟩ := hfails
  obtain ⟨⟨_, _, hinputs', hsource, hcompiled⟩, other, hother, hother_entry⟩ :=
    holds_of_stored hstored
  cases hinputs.symm.trans hinputs'
  have hstill := (growsBy_build options disk).keeps.locate_ok hplace
  obtain ⟨-, hapart⟩ := present_of_inputs hinputs
  have : Std.Symm fun first second : Path =>
      ∀ start, (options.outputPath first).fileName?.isSome = true →
        (options.outputPath second).fileName?.isSome = true →
        (options.outputPath first).placeFrom start ≠
          (options.outputPath second).placeFrom start :=
    ⟨fun _ _ h start hfirst hsecond => (h start hsecond hfirst).symm⟩
  rw [output_of_compileFile hcompiled] at hsame hother
  refine List.Pairwise.forall hapart hsource hfile hne
    (options.build Store.onDisk disk).2.workingDirectory
    (Disk.isSome_fileName?_of_file hother hother_entry)
    (Disk.isSome_fileName?_of_file hplace hentry) ?_
  rw [Disk.placeFrom_of_locate hsame, Disk.placeFrom_of_locate hstill]

/-- What a build may make of a disk. -/
structure Frame (options : BuildOptions) (before after : Disk) : Prop where
  /-- A module that is stored is that of a source, and all of it is there. -/
  module_complete {generated : GeneratedFile} : generated ∈ options.stored before →
    options.Compiles before generated ∧
      after.readText generated.output = .ok generated.javascript
  /-- A file that is no module that is stored keeps its contents. -/
  file_kept {place : Location} {contents : Contents} :
    before.root.entryAt? place = some (.file contents) →
    (∀ generated ∈ options.stored before, after.locate generated.output ≠ .ok place) →
      after.root.entryAt? place = some (.file contents)
  /-- An earlier module of a source that fails now keeps its contents. -/
  earlier_module_kept {file : Path} {place : Location} {contents : Contents} :
    options.Fails before file → before.locate (options.outputPath file) = .ok place →
    before.root.entryAt? place = some (.file contents) →
      after.root.entryAt? place = some (.file contents)
  file_remains {place : Location} {contents : Contents} :
    before.root.entryAt? place = some (.file contents) →
      ∃ contents, after.root.entryAt? place = some (.file contents)
  /-- A file that was not there, or not with these contents, is a module that is stored. -/
  new_file {place : Location} {contents : Contents} :
    after.root.entryAt? place = some (.file contents) →
    before.root.entryAt? place ≠ some (.file contents) →
      ∃ generated ∈ options.stored before, after.locate generated.output = .ok place ∧
        contents = .text generated.javascript
  directory_remains {place : Location} :
    before.root.entryAt? place = some .directory → after.root.entryAt? place = some .directory
  /-- A directory that was not there takes no other place, and is above a module. -/
  new_directory {place : Location} :
    after.root.entryAt? place = some .directory → before.root.entryAt? place ≠ some .directory →
      before.root.entryAt? place = none ∧
        ∃ above generated, options.Compiles before generated ∧
          above.IsAncestor generated.output ∧ after.locate above = .ok place

/-- Every build keeps to its frame, strict or not and with any result. If it succeeds, the modules
that it stores are those of its result. -/
theorem build_frame (options : BuildOptions) (disk : Disk) :
    options.Frame disk (options.build Store.onDisk disk).2 ∧
      ∀ files, (options.build Store.onDisk disk).1 = .ok files → files = options.stored disk := by
  have hgrows := growsBy_build options disk
  have hkept : ∀ {place contents}, disk.root.entryAt? place = some (.file contents) →
      (∀ generated ∈ options.stored disk,
        (options.build Store.onDisk disk).2.locate generated.output ≠ .ok place) →
      (options.build Store.onDisk disk).2.root.entryAt? place = some (.file contents) := by
    intro place contents hentry hplaces
    rw [← hentry]
    apply hgrows.entryAt?_eq_of_forall_ne
    · rw [hentry]
      rfl
    · intro written hwritten
      obtain ⟨generated, hgenerated, rfl⟩ := List.mem_map.mp hwritten
      exact hplaces generated hgenerated
  refine ⟨?_, ?_⟩
  · constructor
    case module_complete =>
      intro generated hstored
      obtain ⟨hcompiles, hholds⟩ := holds_of_stored hstored
      exact ⟨hcompiles, hholds.readText⟩
    case file_kept => exact hkept
    case earlier_module_kept =>
      intro file place contents hfails hplace hentry
      exact hkept hentry fun generated hstored =>
        locate_ne_of_fails hfails hplace hentry hstored
    case file_remains => exact hgrows.keeps.file
    case new_file =>
      intro place contents hafter hbefore
      rcases hgrows.entry place with hsame | ⟨-, hmade, -⟩ | ⟨-, written, hwritten, hplace, hentry⟩
      · exact absurd (hsame.symm.trans hafter) hbefore
      · cases hafter.symm.trans hmade
      · obtain ⟨generated, hgenerated, rfl⟩ := List.mem_map.mp hwritten
        cases hafter.symm.trans hentry
        exact ⟨generated, hgenerated, hplace, rfl⟩
    case directory_remains => exact hgrows.keeps.directory
    case new_directory =>
      intro place hafter hbefore
      rcases hgrows.entry place with hsame | ⟨hnone, -, above, habove, hplace⟩ |
        ⟨-, written, -, -, hentry⟩
      · exact absurd (hsame.symm.trans hafter) hbefore
      · obtain ⟨generated, hcompiles, hancestor⟩ := habove
        exact ⟨hnone, above, generated, hcompiles, hancestor, hplace⟩
      · cases hafter.symm.trans hentry
  · intro files hfiles
    cases hinputs : options.inputs disk with
    | error error =>
        rw [build_of_inputs_error Store.onDisk hinputs] at hfiles
        cases hfiles
    | ok found =>
        obtain ⟨catalog, sources⟩ := found
        rw [build_of_inputs_ok Store.onDisk hinputs] at hfiles
        rw [stored_of_inputs_ok hinputs, eq_of_outcome_eq_ok hfiles]

/-- A disk with an earlier module for a source that has been broken since, and a directory in the
place of another module. -/
def earlierModulesDisk : Disk where
  root := .directory [
    (.ofText "out", .directory [(.ofText "b.js", .file (.text "// b")),
      (.ofText "c.js", .directory [])]),
    (.ofText "src", .directory [(.ofText "a.feature", .file (.text "Feature: A")),
      (.ofText "b.feature", .file (.text "")), (.ofText "c.feature", .file (.text "Feature: C"))])]
  workingDirectory := []

theorem build_frame_earlierModulesDisk :
    partlyBrokenOptions.Frame earlierModulesDisk
        (partlyBrokenOptions.build Store.onDisk earlierModulesDisk).2 ∧
      (partlyBrokenOptions.stored earlierModulesDisk).map GeneratedFile.output =
        [⟨"out/a.js"⟩] ∧
      (reportedErrors (partlyBrokenOptions.build Store.onDisk earlierModulesDisk).1).map
        CompileError.message =
          ["Parse error in src/b.feature: line 1: " ++
            "malformed feature file: missing 'Feature:' header",
          "Failed to write out/c.js: Is a directory (os error 21)"] ∧
      partlyBrokenOptions.Fails earlierModulesDisk ⟨"src/b.feature"⟩ ∧
      (partlyBrokenOptions.build Store.onDisk earlierModulesDisk).2.root.entryAt?
        [.ofText "out", .ofText "b.js"] = some (.file (.text "// b")) := by
  have hinputs : partlyBrokenOptions.inputs earlierModulesDisk =
      .ok (.empty, partlyBrokenSources) := by
    with_unfolding_all rfl
  have hbroken : partlyBrokenOptions.compileFile earlierModulesDisk .empty ⟨"src/b.feature"⟩ =
      .error (.parse ⟨"src/b.feature"⟩ ⟨1, .missingFeature⟩) := by
    with_unfolding_all rfl
  have hfails : partlyBrokenOptions.Fails earlierModulesDisk ⟨"src/b.feature"⟩ :=
    ⟨_, _, hinputs, by decide, Or.inl ⟨_, hbroken⟩⟩
  have hplace : earlierModulesDisk.locate
      (partlyBrokenOptions.outputPath ⟨"src/b.feature"⟩) =
        .ok [.ofText "out", .ofText "b.js"] := by
    with_unfolding_all rfl
  obtain ⟨hframe, -⟩ := build_frame partlyBrokenOptions earlierModulesDisk
  exact ⟨hframe, by decide +kernel, by decide +kernel, hfails,
    hframe.earlier_module_kept hfails hplace rfl⟩

end FeatureCompiler.BuildOptions
