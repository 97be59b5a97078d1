import FeatureCompiler.Proofs.Build.OnDisk

/-!
Dry runs. As long as every module can be written, a build onto an empty shelf has the result of a
build on the disk that it reads from, and the shelf holds what that build writes.
-/

namespace FeatureCompiler

/-- A module as a text on a shelf. -/
def GeneratedFile.asText (generated : GeneratedFile) : Path × String :=
  (generated.output, generated.javascript)

namespace BuildOptions

variable {options : BuildOptions} {catalog : Catalog} {disk start : Disk}

/-- The step of a dry run: unless its module cannot be written, a file has the same outcome. -/
theorem buildFile_onShelf_eq (disk : Disk) {file : Path}
    (hsame : options.compileFile disk catalog file = options.compileFile start catalog file)
    (hwritten : ∀ error, (options.buildFile Store.onDisk catalog disk file).1 = .error error →
      error.isOutputWrite = false) (shelf : Shelf) :
    options.buildFile (Store.onShelf start) catalog shelf file =
      match (options.buildFile Store.onDisk catalog disk file).1 with
      | .ok generated => (.ok generated, shelf.writeAll [generated.asText])
      | .error error => (.error error, shelf) := by
  rcases buildFile_onDisk_cases options catalog disk file with ⟨error, hcompiled, hbuilt⟩ |
    ⟨generated, later, hcompiled, ⟨-, hbuilt⟩ | ⟨fault, -, hbuilt⟩⟩
  · rw [hbuilt, buildFile_of_error shelf (hsame.symm.trans hcompiled)]
  · rw [hbuilt, buildFile_of_ok shelf (hsame.symm.trans hcompiled),
      ← output_of_compileFile hcompiled]
    rfl
  · rw [hbuilt] at hwritten
    cases hwritten _ rfl

/-- The run: from any shelf, a dry run stores the modules that the build on the disk stores. -/
theorem buildFiles_onShelf_eq {files : List Path} (hfiles : Present disk files)
    (hsame : ∀ file ∈ files,
      options.compileFile disk catalog file = options.compileFile start catalog file)
    (hwritten : ∀ error ∈ (options.buildFiles Store.onDisk catalog disk files).errors,
      error.isOutputWrite = false) (shelf : Shelf) :
    options.buildFiles (Store.onShelf start) catalog shelf files =
      ⟨(options.buildFiles Store.onDisk catalog disk files).files,
        (options.buildFiles Store.onDisk catalog disk files).errors,
        shelf.writeAll ((options.buildFiles Store.onDisk catalog disk files).files.map
          GeneratedFile.asText)⟩ := by
  induction files generalizing disk shelf with
  | nil => rfl
  | cons file rest ih =>
      rw [Present, List.forall_mem_cons] at hfiles
      rw [List.forall_mem_cons] at hsame
      have hkeeps := (growsBy_buildFile options catalog disk file).keeps
      have hrest_same : ∀ other ∈ rest,
          options.compileFile (options.buildFile Store.onDisk catalog disk file).2 catalog other =
            options.compileFile start catalog other := by
        intro other hother
        obtain ⟨hfeature, hfound⟩ := hfiles.2 other hother
        exact (compileFile_after_buildFile options catalog file hfeature hfound).trans
          (hsame.2 other hother)
      have hstep := buildFile_onShelf_eq disk hsame.1
      cases hbuilt : options.buildFile Store.onDisk catalog disk file with
      | mk outcome later =>
          rw [hbuilt] at hkeeps hrest_same hstep
          have hrest := Present.keeps hfiles.2 hkeeps
          cases outcome with
          | ok generated =>
              rw [buildFiles_cons_of_ok hbuilt] at hwritten ⊢
              rw [buildFiles_cons_of_ok (hstep (by simp) shelf), ih hrest hrest_same hwritten]
              rfl
          | error error =>
              rw [buildFiles_cons_of_error hbuilt] at hwritten ⊢
              have hfault : error.isOutputWrite = false := by
                apply hwritten
                split <;> exact List.mem_cons_self
              have hshelf := hstep (fun found hfound => Except.error.inj hfound ▸ hfault) shelf
              rw [buildFiles_cons_of_error hshelf]
              by_cases hstrict : options.strict = true
              · rw [if_pos hstrict, if_pos hstrict]
                rfl
              · rw [if_neg hstrict] at hwritten
                rw [if_neg hstrict, if_neg hstrict,
                  ih hrest hrest_same fun found hfound =>
                    hwritten found (List.mem_cons_of_mem _ hfound)]

/-- What a dry run leaves on the shelf are the modules that the build on the disk stores. -/
theorem shelf_perm_stored (catalog : Catalog) (disk : Disk) {sources : List Path}
    (hsources : sources.Pairwise fun first second =>
      (options.outputPath first).same (options.outputPath second) = false) :
    (Shelf.empty.writeAll ((options.buildFiles Store.onDisk catalog disk sources).files.map
      GeneratedFile.asText)).files.Perm
        ((options.buildFiles Store.onDisk catalog disk sources).files.map
          GeneratedFile.asText) := by
  have hdistinct : (sources.map options.outputPath).Pairwise fun first second =>
      first.same second = false := List.pairwise_map.mpr hsources
  have houtputs := hdistinct.sublist (outputs_sublist options Store.onDisk catalog disk sources)
  apply Shelf.empty_writeAll_perm
  rw [List.pairwise_map] at houtputs ⊢
  simp only [GeneratedFile.asText]
  exact houtputs

/-- A dry run agrees with the build that it stands for. Where that build reports no module that
could not be written, the dry run has the same result, the disk then reads at every path on the
shelf as the shelf does, and no module of the result is missing on the shelf. -/
theorem build_onShelf_agrees (options : BuildOptions) (disk : Disk)
    (hwritten : ∀ error ∈ reportedErrors (options.build Store.onDisk disk).1,
      error.isOutputWrite = false) :
    (options.build (Store.onShelf disk) Shelf.empty).1 = (options.build Store.onDisk disk).1 ∧
    (∀ file ∈ (options.build (Store.onShelf disk) Shelf.empty).2.files,
      (options.build Store.onDisk disk).2.readText file.1 = .ok file.2) ∧
    ∀ files, (options.build Store.onDisk disk).1 = .ok files →
      (options.build (Store.onShelf disk) Shelf.empty).2.files.Perm
        (files.map GeneratedFile.asText) := by
  cases hinputs : options.inputs disk with
  | error error =>
      rw [build_of_inputs_error Store.onDisk hinputs,
        build_of_inputs_error (Store.onShelf disk) hinputs]
      exact ⟨rfl, nofun, nofun⟩
  | ok found =>
      obtain ⟨catalog, sources⟩ := found
      obtain ⟨hpresent, hapart⟩ := present_of_inputs hinputs
      obtain ⟨-, hsources⟩ := inputs_eq_ok_iff.mp hinputs
      rw [build_of_inputs_ok Store.onDisk hinputs] at hwritten ⊢
      rw [reportedErrors_outcome] at hwritten
      have hheld := holds_of_buildFiles options catalog hpresent hapart
      have hshelf := shelf_perm_stored catalog disk
        (Disk.pairwise_outputPath_of_discover hsources)
      rw [build_of_inputs_ok (Store.onShelf disk) hinputs,
        buildFiles_onShelf_eq hpresent (fun _ _ => rfl) hwritten]
      refine ⟨rfl, ?_, ?_⟩
      · intro file hfile
        obtain ⟨generated, hgenerated, rfl⟩ := List.mem_map.mp (hshelf.mem_iff.mp hfile)
        exact (hheld generated hgenerated).readText
      · intro files hfiles
        rw [← eq_of_outcome_eq_ok hfiles]
        exact hshelf

/-- Modules go beside their sources, into the directory that is read. -/
def besideSources : BuildOptions :=
  ⟨⟨"src"⟩, ⟨"src"⟩, [], false⟩

theorem build_onShelf_agrees_besideSources :
    (reportedErrors (besideSources.build Store.onDisk partlyBrokenDisk).1).map
        CompileError.message = ["Parse error in src/b.feature: line 1: " ++
          "malformed feature file: missing 'Feature:' header"] ∧
      (∀ error ∈ reportedErrors (besideSources.build Store.onDisk partlyBrokenDisk).1,
        error.isOutputWrite = false) ∧
      (besideSources.build (Store.onShelf partlyBrokenDisk) Shelf.empty).1 =
        (besideSources.build Store.onDisk partlyBrokenDisk).1 ∧
      (besideSources.build (Store.onShelf partlyBrokenDisk) Shelf.empty).2.files.map Prod.fst =
        [⟨"src/a.js"⟩, ⟨"src/c.js"⟩] ∧
      ∀ file ∈ (besideSources.build (Store.onShelf partlyBrokenDisk) Shelf.empty).2.files,
        (besideSources.build Store.onDisk partlyBrokenDisk).2.readText file.1 = .ok file.2 := by
  have hwritten : ∀ error ∈ reportedErrors (besideSources.build Store.onDisk partlyBrokenDisk).1,
      error.isOutputWrite = false := by
    decide +kernel
  obtain ⟨hsame, hread, -⟩ := build_onShelf_agrees besideSources partlyBrokenDisk
    hwritten
  exact ⟨by decide +kernel, hwritten, hsame, by decide +kernel, hread⟩

end BuildOptions

end FeatureCompiler
