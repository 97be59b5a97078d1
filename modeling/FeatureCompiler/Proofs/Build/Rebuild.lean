import FeatureCompiler.Proofs.Build.Frame
import FeatureCompiler.Proofs.Build.Rereading
import FeatureCompiler.Proofs.Disk.Repeating
import Mathlib.Data.List.Forall2

/-!
Building twice. A build that comes right after another one finds the same step files and the same
sources, compiles them to the same modules and leaves the disk as it is. It also has the same
result, with two exceptions: where the output directory is spelled with two dots, a write that
failed because a file was in the way can fail because that file is no directory; and a directory
that the first build made in the source directory can be too deep for the second to read.
-/

namespace FeatureCompiler

/-- How an error of a build can be reported by the next. -/
def CompileError.Recurs (first second : CompileError) : Prop :=
  second = first ∨ ∃ path, first = .outputWrite path .alreadyExists ∧
    second = .outputWrite path .notADirectory ∧ .up ∈ path.directory.components

/-- How the result of a build can be that of the next. -/
inductive Repeats : Except CompileError (List GeneratedFile) →
    Except CompileError (List GeneratedFile) → Prop where
  | ok (files : List GeneratedFile) : Repeats (.ok files) (.ok files)
  | error {first second : CompileError} (h : first.Recurs second) :
      Repeats (.error first) (.error second)
  | multiple {first second : List CompileError}
      (h : List.Forall₂ CompileError.Recurs first second) :
      Repeats (.error (.multiple first)) (.error (.multiple second))

theorem Path.endsPlainly_setExtension (path : Path) {extension : Bytes}
    (hslash : slash ∉ extension) : (path.setExtension extension).EndsPlainly := by
  cases hname : path.fileName? with
  | none =>
      rw [setExtension_of_fileName?_none extension hname]
      exact Or.inl hname
  | some old =>
      obtain ⟨init, stem, hsegments, hsolid⟩ := exists_segments_setExtension hslash hname
      obtain ⟨front, hpieces, -⟩ := exists_pieces_concat hsegments hsolid
      right
      rw [hpieces, List.getLastD_eq_getLast?, List.getLast?_concat]
      exact hsolid

namespace BuildOptions

variable {options : BuildOptions} {catalog : Catalog} {disk later final : Disk}

theorem endsPlainly_outputPath (options : BuildOptions) (file : Path) :
    (options.outputPath file).EndsPlainly := by
  rw [outputPath, Path.withExtension]
  exact Path.endsPlainly_setExtension _ (by decide)

/-- One file again: what became of it becomes of it once more, and the disk stays as it is. -/
theorem buildFile_again {file : Path} {outcome : Except CompileError GeneratedFile}
    (h : options.buildFile Store.onDisk catalog disk file = (outcome, later))
    (hworking : disk.HasWorkingDirectory)
    (hkeeps : Disk.Keeps later final)
    (hsame : options.compileFile final catalog file = options.compileFile disk catalog file)
    (hheld : ∀ generated, outcome = .ok generated →
      final.Holds generated.output (.text generated.javascript)) :
    match outcome with
    | .ok generated =>
        options.buildFile Store.onDisk catalog final file = (.ok generated, final)
    | .error error => ∃ second, error.Recurs second ∧
        options.buildFile Store.onDisk catalog final file = (.error second, final) := by
  rcases buildFile_onDisk_cases options catalog disk file with ⟨error, hcompiled, hbuilt⟩ |
    ⟨generated, written, hcompiled, ⟨hwrite, hbuilt⟩ | ⟨fault, hwrite, hbuilt⟩⟩
  · cases h.symm.trans hbuilt
    refine ⟨error, Or.inl rfl, ?_⟩
    exact buildFile_onDisk_of_error (hsame.trans hcompiled)
  · cases h.symm.trans hbuilt
    obtain ⟨place, hplace, hentry⟩ := hheld generated rfl
    exact buildFile_onDisk_of_write (hsame.trans hcompiled)
      (Disk.writeFile_again hwrite hkeeps hplace hentry)
  · cases h.symm.trans hbuilt
    have hplain := endsPlainly_outputPath options file
    rw [← output_of_compileFile hcompiled] at hplain
    obtain ⟨second, hsecond, hrecurs⟩ :=
      Disk.writeFile_again_of_error hworking hplain hwrite hkeeps
    refine ⟨.outputWrite generated.output second, ?_,
      buildFile_onDisk_of_write (hsame.trans hcompiled) hsecond⟩
    rcases hrecurs with rfl | ⟨rfl, rfl, hup⟩
    · exact Or.inl rfl
    · exact Or.inr ⟨_, rfl, rfl, hup⟩

/-- All files again, on the disk on which everything that was stored is still there. -/
theorem buildFiles_again {files : List Path} (hfiles : Present disk files)
    (hworking : disk.HasWorkingDirectory)
    (hkeeps : Disk.Keeps (options.buildFiles Store.onDisk catalog disk files).state final)
    (hsame : ∀ file ∈ files,
      options.compileFile final catalog file = options.compileFile disk catalog file)
    (hheld : ∀ generated ∈ (options.buildFiles Store.onDisk catalog disk files).files,
      final.Holds generated.output (.text generated.javascript)) :
    ∃ errors, List.Forall₂ CompileError.Recurs
        (options.buildFiles Store.onDisk catalog disk files).errors errors ∧
      options.buildFiles Store.onDisk catalog final files =
        ⟨(options.buildFiles Store.onDisk catalog disk files).files, errors, final⟩ := by
  induction files generalizing disk with
  | nil => exact ⟨[], .nil, rfl⟩
  | cons file rest ih =>
      rw [Present, List.forall_mem_cons] at hfiles
      rw [List.forall_mem_cons] at hsame
      have hstep := (growsBy_buildFile options catalog disk file).keeps
      have hrest_same : ∀ other ∈ rest, options.compileFile final catalog other =
          options.compileFile (options.buildFile Store.onDisk catalog disk file).2 catalog
            other := by
        intro other hother
        obtain ⟨hfeature, hfound⟩ := hfiles.2 other hother
        rw [hsame.2 other hother, compileFile_after_buildFile options catalog file hfeature hfound]
      cases hbuilt : options.buildFile Store.onDisk catalog disk file with
      | mk outcome later =>
          rw [hbuilt] at hstep hrest_same
          have hrest := Present.keeps hfiles.2 hstep
          have hlater := (growsBy_buildFiles options catalog hrest).2.keeps
          cases outcome with
          | ok generated =>
              rw [buildFiles_cons_of_ok hbuilt] at hkeeps hheld ⊢
              obtain ⟨hfirst, hmore⟩ := List.forall_mem_cons.mp hheld
              obtain ⟨errors, hrecurs, hagain⟩ :=
                ih hrest (hworking.keeps hstep) hkeeps hrest_same hmore
              have hfile := buildFile_again hbuilt hworking (hlater.trans hkeeps) hsame.1
                fun found hfound => Except.ok.inj hfound ▸ hfirst
              refine ⟨errors, hrecurs, ?_⟩
              rw [buildFiles_cons_of_ok hfile, hagain]
          | error error =>
              rw [buildFiles_cons_of_error hbuilt] at hkeeps hheld ⊢
              by_cases hstrict : options.strict = true
              · rw [if_pos hstrict] at hkeeps ⊢
                obtain ⟨second, hsecond, hfile⟩ :=
                  buildFile_again hbuilt hworking hkeeps hsame.1 (by simp)
                refine ⟨[second], .cons hsecond .nil, ?_⟩
                rw [buildFiles_cons_of_error hfile, if_pos hstrict]
              · rw [if_neg hstrict] at hkeeps hheld ⊢
                obtain ⟨errors, hrecurs, hagain⟩ :=
                  ih hrest (hworking.keeps hstep) hkeeps hrest_same hheld
                obtain ⟨second, hsecond, hfile⟩ :=
                  buildFile_again hbuilt hworking (hlater.trans hkeeps) hsame.1 (by simp)
                refine ⟨second :: errors, .cons hsecond hrecurs, ?_⟩
                rw [buildFiles_cons_of_error hfile, if_neg hstrict, hagain]

theorem repeats_outcome (options : BuildOptions) (files : List GeneratedFile)
    {first second : List CompileError} (h : List.Forall₂ CompileError.Recurs first second) :
    Repeats (options.outcome files first) (options.outcome files second) := by
  cases h with
  | nil => exact .ok files
  | cons hhead htail =>
      rw [outcome, outcome]
      split
      · exact .error hhead
      · exact .multiple (.cons hhead htail)

/-- Errors recur as they were if none is of a write to a path that climbs. -/
theorem eq_of_forall₂_recurs {first second : List CompileError}
    (h : List.Forall₂ CompileError.Recurs first second)
    (hplain : ∀ path fault, .outputWrite path fault ∈ first →
      .up ∉ path.directory.components) : second = first := by
  induction h with
  | nil => rfl
  | cons hhead htail ih =>
      rw [ih fun path fault hmem => hplain path fault (List.mem_cons_of_mem _ hmem)]
      rcases hhead with rfl | ⟨path, rfl, rfl, hup⟩
      · rfl
      · exact absurd hup (hplain path _ List.mem_cons_self)

/-- Whether no module that a build stores takes the place of one of its step files. -/
def SparesStepFiles (options : BuildOptions) (disk : Disk) : Prop :=
  ∀ generated ∈ options.stored disk, ∀ file ∈ options.stepFiles, ∀ place,
    (options.build Store.onDisk disk).2.locate generated.output = .ok place →
      (options.build Store.onDisk disk).2.locate file ≠ .ok place

variable {sources : List Path}

/-- A build leaves the step files of the next one as they are. -/
theorem loadCatalog_after_build (hsteps : options.SparesStepFiles disk)
    (h : disk.loadCatalog options.stepFiles = .ok catalog) :
    (options.build Store.onDisk disk).2.loadCatalog options.stepFiles = .ok catalog := by
  apply Disk.loadCatalog_again (growsBy_build options disk) _ h
  intro path hpath place hplace written hwritten hsame
  obtain ⟨generated, hgenerated, rfl⟩ := List.mem_map.mp hwritten
  exact hsteps generated hgenerated path hpath place hsame hplace

/-- A build leaves the sources of the next one, if they can still be read. -/
theorem discover_after_build
    (hdeep : Disk.StaysReadable options.source disk (options.build Store.onDisk disk).2)
    (h : disk.discover options.source = .ok sources) :
    (options.build Store.onDisk disk).2.discover options.source = .ok sources := by
  apply Disk.discover_again (growsBy_build options disk) _ hdeep h
  intro written hwritten place hplace hentry
  obtain ⟨generated, hgenerated, rfl⟩ := List.mem_map.mp hwritten
  obtain ⟨⟨_, _, -, -, hcompiled⟩, -⟩ := holds_of_stored hgenerated
  simp only [GeneratedFile.asFile, output_of_compileFile hcompiled] at hplace
  exact not_isFeaturePlace hplace hentry

/-- A source compiles to the same module after the build. -/
theorem compileFile_after_build (h : options.inputs disk = .ok (catalog, sources))
    {file : Path} (hfile : file ∈ sources) :
    options.compileFile (options.build Store.onDisk disk).2 catalog file =
      options.compileFile disk catalog file := by
  have hgrows := growsBy_build options disk
  obtain ⟨hpresent, -⟩ := present_of_inputs h
  obtain ⟨hfeature, hfound⟩ := hpresent file hfile
  refine compileFile_congr hgrows.workingDirectory (hgrows.readText hfound ?_)
  intro place hplace written hwritten hsame
  obtain ⟨generated, hgenerated, rfl⟩ := List.mem_map.mp hwritten
  obtain ⟨⟨_, _, -, -, hcompiled⟩, found, hlocate, hentry⟩ := holds_of_stored hgenerated
  obtain rfl : found = place := Except.ok.inj (hlocate.symm.trans hsame)
  rw [output_of_compileFile hcompiled] at hlocate
  exact locate_ne_of_isFeatureFile hlocate hentry hfeature hplace

/-- What a second build makes of the disk that the first one leaves. -/
def rebuild (options : BuildOptions) (disk : Disk) :
    Except CompileError (List GeneratedFile) × Disk :=
  options.build Store.onDisk (options.build Store.onDisk disk).2

/-- The second build, if it finds what the first one has found. -/
theorem rebuild_of_inputs (hworking : disk.HasWorkingDirectory)
    (hinputs : options.inputs disk = .ok (catalog, sources))
    (hagain : options.inputs (options.build Store.onDisk disk).2 = .ok (catalog, sources)) :
    ∃ errors, List.Forall₂ CompileError.Recurs
        (options.buildFiles Store.onDisk catalog disk sources).errors errors ∧
      options.rebuild disk =
        (options.outcome (options.buildFiles Store.onDisk catalog disk sources).files errors,
          (options.build Store.onDisk disk).2) := by
  obtain ⟨hpresent, hapart⟩ := present_of_inputs hinputs
  have hstate : (options.build Store.onDisk disk).2 =
      (options.buildFiles Store.onDisk catalog disk sources).state := by
    rw [build_of_inputs_ok Store.onDisk hinputs]
  have hheld := holds_of_buildFiles options catalog hpresent hapart
  rw [← hstate] at hheld
  have hkeeps : Disk.Keeps (options.buildFiles Store.onDisk catalog disk sources).state
      (options.build Store.onDisk disk).2 := hstate ▸ Disk.Keeps.refl _
  obtain ⟨errors, hrecurs, hfiles⟩ := buildFiles_again hpresent hworking hkeeps
    (fun _ hfile => compileFile_after_build hinputs hfile) hheld
  refine ⟨errors, hrecurs, ?_⟩
  rw [rebuild, build_of_inputs_ok Store.onDisk hagain]
  simp only [hfiles]

/-- Whether an output path of a build leads up by two dots. -/
def Climbs (options : BuildOptions) (disk : Disk) : Prop :=
  ∃ catalog sources, options.inputs disk = .ok (catalog, sources) ∧
    ∃ file ∈ sources, .up ∈ (options.outputPath file).directory.components

/-- How far building is idempotent. If no module was written over a step file, a second build right
after the first leaves the disk as it is. If no directory that was made is too deep to be read, it
also has the result of the first build, but for the reason of a write that failed by way of two
dots. -/
theorem rebuild_repeats (options : BuildOptions) (disk : Disk)
    (hworking : disk.HasWorkingDirectory) (hsteps : options.SparesStepFiles disk) :
    (options.rebuild disk).2 = (options.build Store.onDisk disk).2 ∧
      (Disk.StaysReadable options.source disk (options.build Store.onDisk disk).2 →
        Repeats (options.build Store.onDisk disk).1 (options.rebuild disk).1 ∧
          (¬ options.Climbs disk →
            (options.rebuild disk).1 = (options.build Store.onDisk disk).1)) ∧
      (¬ Disk.StaysReadable options.source disk (options.build Store.onDisk disk).2 →
        ∃ directory, (options.rebuild disk).1 = .error (.walk directory .nameTooLong)) := by
  cases hinputs : options.inputs disk with
  | error error =>
      have hfirst := build_of_inputs_error Store.onDisk hinputs
      have hsecond : options.rebuild disk = (.error error, disk) := by
        rw [rebuild, hfirst]
        exact hfirst
      rw [hfirst, hsecond]
      refine ⟨rfl, fun _ => ⟨.error (Or.inl rfl), fun _ => rfl⟩, fun hdeep => ?_⟩
      -- Without sources nothing is made.
      refine absurd ?_ hdeep
      intro start place _ hnew hmade
      cases hnew.symm.trans hmade
  | ok found =>
      obtain ⟨catalog, sources⟩ := found
      obtain ⟨hcatalog, hsources⟩ := inputs_eq_ok_iff.mp hinputs
      have hcatalog_again := loadCatalog_after_build hsteps hcatalog
      by_cases hdeep : Disk.StaysReadable options.source disk (options.build Store.onDisk disk).2
      · have hagain := inputs_eq_ok_iff.mpr
          ⟨hcatalog_again, discover_after_build hdeep hsources⟩
        obtain ⟨errors, hrecurs, hsecond⟩ := rebuild_of_inputs hworking hinputs hagain
        have hfirst : (options.build Store.onDisk disk).1 = _ :=
          congrArg Prod.fst (build_of_inputs_ok Store.onDisk hinputs)
        refine ⟨by rw [hsecond], fun _ => ⟨?_, fun hplain => ?_⟩, absurd hdeep⟩
        · rw [hsecond, hfirst]
          exact repeats_outcome options _ hrecurs
        · have herrors : errors =
              (options.buildFiles Store.onDisk catalog disk sources).errors := by
            apply eq_of_forall₂_recurs hrecurs
            intro path fault hmem hup
            obtain ⟨hpaths, -⟩ := errors_of_buildFiles options Store.onDisk catalog disk sources
            obtain ⟨file, hfile, rfl⟩ := List.mem_map.mp ((hpaths _ hmem).2 _ _ rfl)
            exact hplain ⟨catalog, sources, hinputs, file, hfile, hup⟩
          rw [hsecond, hfirst, herrors]
      · obtain ⟨directory, hwalk⟩ :=
          Disk.discover_of_not_staysReadable hdeep
        have hagain : options.inputs (options.build Store.onDisk disk).2 =
            .error (.walk directory .nameTooLong) := by
          rw [inputs, hcatalog_again, hwalk]
          rfl
        have hsecond : options.rebuild disk = _ := build_of_inputs_error Store.onDisk hagain
        rw [hsecond]
        exact ⟨rfl, fun hreadable => absurd hreadable hdeep, fun _ => ⟨directory, rfl⟩⟩

/-- A disk with a step file, and with a file where a build may want a directory. -/
def takenDisk : Disk where
  root := .directory [
    (.ofText "src", .directory [(.ofText "a.feature", .file (.text "Feature: A"))]),
    (.ofText "steps.json", .file (.text "\x7b\x7d")),
    (.ofText "taken", .file (.text ""))]
  workingDirectory := []

theorem sparesStepFiles_of_ne
    (h : ∀ generated ∈ options.stored disk, ∀ file ∈ options.stepFiles,
      (options.build Store.onDisk disk).2.locate generated.output ≠
        (options.build Store.onDisk disk).2.locate file) : options.SparesStepFiles disk := by
  intro generated hgenerated file hfile place hplace hsame
  exact h generated hgenerated file hfile (hplace.trans hsame.symm)

def madeInSources : BuildOptions :=
  ⟨⟨"src"⟩, ⟨"src/made"⟩, [⟨"steps.json"⟩], true⟩

theorem rebuild_repeats_madeInSources :
    takenDisk.HasWorkingDirectory ∧
      madeInSources.SparesStepFiles takenDisk ∧
      (madeInSources.stored takenDisk).map GeneratedFile.output = [⟨"src/made/a.js"⟩] ∧
      Disk.StaysReadable madeInSources.source takenDisk
        (madeInSources.build Store.onDisk takenDisk).2 ∧
      ¬ madeInSources.Climbs takenDisk ∧
      (madeInSources.rebuild takenDisk).2 = (madeInSources.build Store.onDisk takenDisk).2 ∧
      (madeInSources.rebuild takenDisk).1 = (madeInSources.build Store.onDisk takenDisk).1 := by
  have hsteps : madeInSources.SparesStepFiles takenDisk :=
    sparesStepFiles_of_ne (by decide +kernel)
  have hinputs : madeInSources.inputs takenDisk =
      .ok (Catalog.empty.add ⟨⟨"steps.json"⟩, ⟨"steps.js"⟩, [], [], []⟩,
        [⟨"src/a.feature"⟩]) := by
    with_unfolding_all rfl
  have hclimbs : ¬ madeInSources.Climbs takenDisk := by
    rintro ⟨catalog, sources, hfound, file, hfile, hup⟩
    cases hinputs.symm.trans hfound
    obtain rfl := List.mem_singleton.mp hfile
    revert hup
    decide +kernel
  have hdeep : Disk.StaysReadable madeInSources.source takenDisk
      (madeInSources.build Store.onDisk takenDisk).2 := by
    have hfound : ((madeInSources.build Store.onDisk takenDisk).2.discover
        madeInSources.source).toBool = true := by
      decide +kernel
    by_contra hdeep
    obtain ⟨directory, herror⟩ := Disk.discover_of_not_staysReadable hdeep
    rw [herror] at hfound
    cases hfound
  obtain ⟨hdisk, hresult, -⟩ :=
    rebuild_repeats madeInSources takenDisk rfl hsteps
  exact ⟨rfl, hsteps, by decide +kernel, hdeep, hclimbs, hdisk,
    (hresult hdeep).2 hclimbs⟩

def climbingOutput : BuildOptions :=
  ⟨⟨"src"⟩, ⟨"made/../taken/out"⟩, [⟨"steps.json"⟩], true⟩

/-- The first build has to make the directory that the two dots lead out of before it comes upon the
file that is in the way. The second looks below that file at once. -/
theorem rebuild_climbing_differs :
    takenDisk.HasWorkingDirectory ∧
      climbingOutput.SparesStepFiles takenDisk ∧
      (reportedErrors (climbingOutput.build Store.onDisk takenDisk).1).map CompileError.message =
        ["Failed to write made/../taken/out/a.js: File exists (os error 17)"] ∧
      (reportedErrors (climbingOutput.rebuild takenDisk).1).map CompileError.message =
        ["Failed to write made/../taken/out/a.js: Not a directory (os error 20)"] :=
  ⟨rfl, sparesStepFiles_of_ne (by decide +kernel), by decide +kernel,
    by decide +kernel⟩

end BuildOptions

end FeatureCompiler
