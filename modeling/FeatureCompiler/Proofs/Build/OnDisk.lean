import FeatureCompiler.Proofs.Build.Places
import FeatureCompiler.Proofs.Build.Report

/-!
Builds that write to the disk they read from. No file of a build can change what another one reads,
so each source compiles as it would on the disk that the build started with. The disk grows by the
modules that were stored and by directories above them, and holds every one of these modules.
-/

namespace FeatureCompiler

theorem Store.onDisk_disk (disk : Disk) : Store.onDisk.disk disk = disk :=
  rfl

theorem Store.onDisk_write (disk : Disk) (path : Path) (text : String) :
    Store.onDisk.write disk path text = disk.writeFile path (.text text) := by
  simp only [Store.onDisk]

namespace Disk

/-- Whether a path leads to a file with these contents. -/
def Holds (disk : Disk) (path : Path) (contents : Contents) : Prop :=
  ∃ place, disk.locate path = .ok place ∧ disk.root.entryAt? place = some (.file contents)

/-- The text that is read from what stands at a place. -/
def textOf : Option Entry → Except DiskFault String
  | some (.file (.text text)) => .ok text
  | some (.file (.bytes _)) => .error .notText
  | some .directory => .error .isADirectory
  | none => .error .notFound

theorem readText_eq (disk : Disk) (path : Path) :
    disk.readText path = disk.locate path >>= fun place => textOf (disk.root.entryAt? place) := by
  rw [readText]
  congr 1
  funext place
  rw [Node.entryAt?]
  cases disk.root.get? place with
  | none => rfl
  | some node =>
      cases node with
      | directory entries => rfl
      | file contents => cases contents <;> rfl

theorem Holds.readText {disk : Disk} {path : Path} {text : String}
    (h : disk.Holds path (.text text)) : disk.readText path = .ok text := by
  obtain ⟨place, hplace, hentry⟩ := h
  rw [readText_eq, bind_eq_ok_iff]
  refine ⟨place, hplace, ?_⟩
  rw [hentry]
  rfl

/-- A file that is not missing is read as before, as long as it is not written. -/
theorem GrowsBy.readText {directories : Path → Prop} {files : List (Path × Contents)}
    {earlier later : Disk} (h : GrowsBy directories files earlier later) {path : Path}
    (hfound : earlier.locate path ≠ .error .notFound)
    (hfiles : ∀ place, later.locate path = .ok place →
      ∀ file ∈ files, later.locate file.1 ≠ .ok place) :
    later.readText path = earlier.readText path := by
  have hlocate := h.keeps.locate hfound
  rw [readText_eq, readText_eq, hlocate]
  cases hplace : earlier.locate path with
  | error fault => rfl
  | ok place =>
      have hentry := h.entryAt?_eq_of_forall_ne (isSome_entryAt?_of_locate hplace)
        (hfiles place (hlocate.trans hplace))
      exact congrArg textOf hentry

end Disk

/-- A module as a file on a disk. -/
def GeneratedFile.asFile (generated : GeneratedFile) : Path × Contents :=
  (generated.output, .text generated.javascript)

namespace BuildOptions

variable {options : BuildOptions} {catalog : Catalog} {disk : Disk}

/-- What a file compiles to depends on its own text alone, and on where the build runs. -/
theorem compileFile_congr {later : Disk} {file : Path}
    (hworking : later.workingDirectory = disk.workingDirectory)
    (hread : later.readText file = disk.readText file) :
    options.compileFile later catalog file = options.compileFile disk catalog file := by
  rw [compileFile, compileFile, hworking, hread]

/-- The three things that can become of one file, by what writing its module does. -/
theorem buildFile_onDisk_cases (options : BuildOptions) (catalog : Catalog) (disk : Disk)
    (file : Path) :
    (∃ error, options.compileFile disk catalog file = .error error ∧
      options.buildFile Store.onDisk catalog disk file = (.error error, disk)) ∨
    ∃ generated later, options.compileFile disk catalog file = .ok generated ∧
      (disk.writeFile generated.output (.text generated.javascript) = (.ok (), later) ∧
        options.buildFile Store.onDisk catalog disk file = (.ok generated, later) ∨
      ∃ fault,
        disk.writeFile generated.output (.text generated.javascript) = (.error fault, later) ∧
        options.buildFile Store.onDisk catalog disk file =
          (.error (.outputWrite generated.output fault), later)) := by
  have hcases := buildFile_cases options Store.onDisk catalog disk file
  simp only [Store.onDisk_disk, Store.onDisk_write] at hcases
  exact hcases

theorem buildFile_onDisk_of_error {file : Path} {error : CompileError}
    (h : options.compileFile disk catalog file = .error error) :
    options.buildFile Store.onDisk catalog disk file = (.error error, disk) := by
  rcases buildFile_onDisk_cases options catalog disk file with ⟨found, hcompiled, hbuilt⟩ |
    ⟨generated, later, hcompiled, -⟩
  · cases h.symm.trans hcompiled
    exact hbuilt
  · cases h.symm.trans hcompiled

theorem buildFile_onDisk_of_write {file : Path} {generated : GeneratedFile} {later : Disk}
    {outcome : Except DiskFault Unit}
    (h : options.compileFile disk catalog file = .ok generated)
    (hwrite : disk.writeFile generated.output (.text generated.javascript) = (outcome, later)) :
    options.buildFile Store.onDisk catalog disk file =
      (match outcome with
        | .ok () => .ok generated
        | .error fault => .error (.outputWrite generated.output fault), later) := by
  rcases buildFile_onDisk_cases options catalog disk file with ⟨error, hcompiled, -⟩ |
    ⟨found, written, hcompiled, ⟨hdone, hbuilt⟩ | ⟨fault, hdone, hbuilt⟩⟩
  · cases h.symm.trans hcompiled
  · cases h.symm.trans hcompiled
    cases hwrite.symm.trans hdone
    exact hbuilt
  · cases h.symm.trans hcompiled
    cases hwrite.symm.trans hdone
    exact hbuilt

/-- The files on a disk that a single outcome stands for. -/
def filesOf : Except CompileError GeneratedFile → List (Path × Contents)
  | .ok generated => [generated.asFile]
  | .error _ => []

/-- What one file does to the disk. -/
theorem growsBy_buildFile (options : BuildOptions) (catalog : Catalog) (disk : Disk)
    (file : Path) :
    Disk.GrowsBy
      (fun above => ∃ generated, options.compileFile disk catalog file = .ok generated ∧
        above.IsAncestor generated.output)
      (filesOf (options.buildFile Store.onDisk catalog disk file).1) disk
      (options.buildFile Store.onDisk catalog disk file).2 := by
  rcases buildFile_onDisk_cases options catalog disk file with ⟨error, -, hbuilt⟩ |
    ⟨generated, later, hcompiled, ⟨hwrite, hbuilt⟩ | ⟨fault, hwrite, hbuilt⟩⟩
  · rw [hbuilt]
    exact .refl _ _ _
  · rw [hbuilt]
    exact (Disk.growsBy_writeFile_ok hwrite).1.mono
      (fun above h => ⟨generated, hcompiled, h⟩) (List.Subset.refl _)
  · rw [hbuilt]
    exact (Disk.growsBy_writeFile_error hwrite).mono
      (fun above h => ⟨generated, hcompiled, h⟩) (List.Subset.refl _)

/-- A module that is stored is the one the file compiles to, and the disk holds it. -/
theorem holds_of_buildFile {file : Path} {generated : GeneratedFile} {later : Disk}
    (h : options.buildFile Store.onDisk catalog disk file = (.ok generated, later)) :
    options.compileFile disk catalog file = .ok generated ∧
      later.Holds generated.output (.text generated.javascript) := by
  rcases buildFile_onDisk_cases options catalog disk file with ⟨error, -, hbuilt⟩ |
    ⟨found, written, hcompiled, ⟨hwrite, hbuilt⟩ | ⟨fault, -, hbuilt⟩⟩
  · cases h.symm.trans hbuilt
  · cases h.symm.trans hbuilt
    exact ⟨hcompiled, (Disk.growsBy_writeFile_ok hwrite).2⟩
  · cases h.symm.trans hbuilt

/-- Whether some files are feature files that are not missing. -/
def Present (disk : Disk) (files : List Path) : Prop :=
  ∀ file ∈ files, isFeatureFile file = true ∧ disk.locate file ≠ .error .notFound

theorem Present.keeps {later : Disk} {files : List Path} (h : Present disk files)
    (hkeeps : disk.Keeps later) : Present later files := by
  intro file hfile
  obtain ⟨hfeature, hfound⟩ := h file hfile
  refine ⟨hfeature, ?_⟩
  rw [hkeeps.locate hfound]
  exact hfound

/-- One file of a build does not change what another one compiles to. -/
theorem compileFile_after_buildFile (options : BuildOptions) (catalog : Catalog) {disk : Disk}
    (file : Path) {other : Path} (hfeature : isFeatureFile other = true)
    (hfound : disk.locate other ≠ .error .notFound) :
    options.compileFile (options.buildFile Store.onDisk catalog disk file).2 catalog other =
      options.compileFile disk catalog other := by
  have hgrows := growsBy_buildFile options catalog disk file
  cases hbuilt : options.buildFile Store.onDisk catalog disk file with
  | mk outcome later =>
      rw [hbuilt] at hgrows
      simp only at hgrows ⊢
      refine compileFile_congr hgrows.workingDirectory (hgrows.readText hfound ?_)
      intro target htarget written hwritten hsame
      cases outcome with
      | error error => cases hwritten
      | ok generated =>
          obtain ⟨hcompiled, place, hplace, hentry⟩ := holds_of_buildFile hbuilt
          obtain rfl := List.mem_singleton.mp hwritten
          obtain rfl : place = target := Except.ok.inj (hplace.symm.trans hsame)
          rw [output_of_compileFile hcompiled] at hplace
          exact locate_ne_of_isFeatureFile hplace hentry hfeature htarget

/-- What the files of a build do to the disk: every module that is stored is that of a source as
the build found it, and the disk grows by these modules and by directories above modules. -/
theorem growsBy_buildFiles (options : BuildOptions) (catalog : Catalog) {disk : Disk}
    {files : List Path} (hfiles : Present disk files) :
    (∀ generated ∈ (options.buildFiles Store.onDisk catalog disk files).files,
      generated.source ∈ files ∧
        options.compileFile disk catalog generated.source = .ok generated) ∧
    Disk.GrowsBy
      (fun above => ∃ file ∈ files, ∃ generated,
        options.compileFile disk catalog file = .ok generated ∧ above.IsAncestor generated.output)
      ((options.buildFiles Store.onDisk catalog disk files).files.map GeneratedFile.asFile) disk
      (options.buildFiles Store.onDisk catalog disk files).state := by
  induction files generalizing disk with
  | nil => exact ⟨nofun, .refl _ _ _⟩
  | cons file rest ih =>
      rw [Present, List.forall_mem_cons] at hfiles
      have hstep := growsBy_buildFile options catalog disk file
      have hsame : ∀ other ∈ rest,
          options.compileFile (options.buildFile Store.onDisk catalog disk file).2 catalog other =
            options.compileFile disk catalog other := by
        intro other hother
        obtain ⟨hfeature, hfound⟩ := hfiles.2 other hother
        exact compileFile_after_buildFile options catalog file hfeature hfound
      cases hbuilt : options.buildFile Store.onDisk catalog disk file with
      | mk outcome later =>
          rw [hbuilt] at hstep hsame
          simp only at hstep hsame
          obtain ⟨hcompiled, hgrows⟩ := ih (Present.keeps hfiles.2 hstep.keeps)
          have hcompiled_rest : ∀ generated ∈
              (options.buildFiles Store.onDisk catalog later rest).files,
              generated.source ∈ file :: rest ∧
                options.compileFile disk catalog generated.source = .ok generated := by
            intro generated hgenerated
            obtain ⟨hsource, hok⟩ := hcompiled generated hgenerated
            exact ⟨List.mem_cons_of_mem _ hsource, hsame _ hsource ▸ hok⟩
          have hgrows_both : Disk.GrowsBy
              (fun above => ∃ source ∈ file :: rest, ∃ generated,
                options.compileFile disk catalog source = .ok generated ∧
                  above.IsAncestor generated.output)
              (filesOf outcome ++
                (options.buildFiles Store.onDisk catalog later rest).files.map
                  GeneratedFile.asFile)
              disk (options.buildFiles Store.onDisk catalog later rest).state := by
            refine (hstep.mono ?_ (List.Subset.refl _)).trans
              (hgrows.mono ?_ (List.Subset.refl _))
            · rintro above ⟨generated, hok, habove⟩
              exact ⟨file, List.mem_cons_self, generated, hok, habove⟩
            · rintro above ⟨source, hsource, generated, hok, habove⟩
              exact ⟨source, List.mem_cons_of_mem _ hsource, generated,
                hsame source hsource ▸ hok, habove⟩
          cases outcome with
          | ok generated =>
              rw [buildFiles_cons_of_ok hbuilt]
              refine ⟨List.forall_mem_cons.mpr ⟨?_, hcompiled_rest⟩, hgrows_both⟩
              have hok := (holds_of_buildFile hbuilt).1
              rw [source_of_compileFile hok]
              exact ⟨List.mem_cons_self, hok⟩
          | error error =>
              rw [buildFiles_cons_of_error hbuilt]
              split
              · refine ⟨nofun, hstep.mono ?_ (List.Subset.refl _)⟩
                rintro above ⟨generated, hok, habove⟩
                exact ⟨file, List.mem_cons_self, generated, hok, habove⟩
              · exact ⟨hcompiled_rest, hgrows_both⟩

/-- Whether the modules of some files, where they are files, go to different places. -/
def Apart (options : BuildOptions) (files : List Path) : Prop :=
  files.Pairwise fun first second =>
    ∀ start, (options.outputPath first).fileName?.isSome = true →
      (options.outputPath second).fileName?.isSome = true →
      (options.outputPath first).placeFrom start ≠ (options.outputPath second).placeFrom start

/-- A later file of a build does not take the place of an earlier module. -/
theorem holds_after_buildFiles (catalog : Catalog) {file : Path}
    {rest : List Path} (hrest : Present disk rest)
    (hheld : ∀ generated ∈ (options.buildFiles Store.onDisk catalog disk rest).files,
      (options.buildFiles Store.onDisk catalog disk rest).state.Holds generated.output
        (.text generated.javascript))
    (hapart : options.Apart (file :: rest)) {contents : Contents}
    (hholds : disk.Holds (options.outputPath file) contents) :
    (options.buildFiles Store.onDisk catalog disk rest).state.Holds (options.outputPath file)
      contents := by
  obtain ⟨place, hplace, hentry⟩ := hholds
  obtain ⟨hcompiled, hgrows⟩ := growsBy_buildFiles options catalog hrest
  generalize options.buildFiles Store.onDisk catalog disk rest = batch at *
  have hstill := hgrows.keeps.locate_ok hplace
  refine ⟨place, hstill, ?_⟩
  rw [← hentry]
  apply hgrows.entryAt?_eq_of_forall_ne
  · rw [hentry]
    rfl
  · intro written hwritten hsame
    obtain ⟨generated, hgenerated, rfl⟩ := List.mem_map.mp hwritten
    obtain ⟨other, hother, hother_entry⟩ := hheld generated hgenerated
    obtain ⟨hsource, hok⟩ := hcompiled generated hgenerated
    simp only [GeneratedFile.asFile, output_of_compileFile hok] at hsame
    rw [output_of_compileFile hok] at hother
    refine (List.pairwise_cons.mp hapart).1 _ hsource batch.state.workingDirectory
      (Disk.isSome_fileName?_of_file hplace hentry)
      (Disk.isSome_fileName?_of_file hother hother_entry) ?_
    rw [Disk.placeFrom_of_locate hstill, Disk.placeFrom_of_locate hsame]

/-- After a build, the disk holds every module that was stored. -/
theorem holds_of_buildFiles (options : BuildOptions) (catalog : Catalog) {disk : Disk}
    {files : List Path} (hfiles : Present disk files) (hapart : options.Apart files) :
    ∀ generated ∈ (options.buildFiles Store.onDisk catalog disk files).files,
      (options.buildFiles Store.onDisk catalog disk files).state.Holds generated.output
        (.text generated.javascript) := by
  induction files generalizing disk with
  | nil => exact nofun
  | cons file rest ih =>
      rw [Present, List.forall_mem_cons] at hfiles
      have hkeeps := (growsBy_buildFile options catalog disk file).keeps
      cases hbuilt : options.buildFile Store.onDisk catalog disk file with
      | mk outcome later =>
          rw [hbuilt] at hkeeps
          have hrest := Present.keeps hfiles.2 hkeeps
          have hheld := ih hrest (List.pairwise_cons.mp hapart).2
          cases outcome with
          | ok generated =>
              obtain ⟨hok, hholds⟩ := holds_of_buildFile hbuilt
              rw [buildFiles_cons_of_ok hbuilt]
              refine List.forall_mem_cons.mpr ⟨?_, hheld⟩
              rw [output_of_compileFile hok] at hholds ⊢
              exact holds_after_buildFiles catalog hrest hheld hapart hholds
          | error error =>
              rw [buildFiles_cons_of_error hbuilt]
              split
              · exact nofun
              · exact hheld

/-- The sources of a build are there, and their modules do not get in the way of each other. -/
theorem present_of_inputs {sources : List Path} (h : options.inputs disk = .ok (catalog, sources)) :
    Present disk sources ∧ options.Apart sources := by
  obtain ⟨-, hsources⟩ := inputs_eq_ok_iff.mp h
  exact ⟨fun file hfile => Disk.locate_ne_notFound_of_discover hsources hfile,
    Disk.pairwise_places_of_discover hsources⟩

end BuildOptions

end FeatureCompiler
