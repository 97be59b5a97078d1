import FeatureCompiler.Build.Run
import FeatureCompiler.Proofs.Build.Layout
import FeatureCompiler.Proofs.Build.Shelf

/-!
What a build makes of many files. A build that is not strict stores the module of every source that
compiles and reports the errors of all others; a strict one does the same with the sources before
the first that fails, and reports that one alone. Where the sources cannot be found or a step file
cannot be loaded, nothing is stored.
-/

namespace FeatureCompiler.BuildOptions

/-- The modules of the files that compile. -/
def modules (options : BuildOptions) (disk : Disk) (catalog : Catalog) (files : List Path) :
    List GeneratedFile :=
  files.filterMap fun file => (options.compileFile disk catalog file).toOption

/-- The errors of the files that do not compile. -/
def failures (options : BuildOptions) (disk : Disk) (catalog : Catalog) (files : List Path) :
    List CompileError :=
  files.filterMap fun file =>
    match options.compileFile disk catalog file with
    | .ok _ => none
    | .error error => some error

/-- The texts of the files that compile, each under its output path. -/
def texts (options : BuildOptions) (disk : Disk) (catalog : Catalog) (files : List Path) :
    List (Path × String) :=
  files.filterMap fun file =>
    (options.compileFile disk catalog file).toOption.map fun generated =>
      (options.outputPath file, generated.javascript)

variable {options : BuildOptions} {disk : Disk} {catalog : Catalog}

theorem output_of_compileFile {file : Path} {generated : GeneratedFile}
    (h : options.compileFile disk catalog file = .ok generated) :
    generated.output = options.outputPath file := by
  obtain ⟨text, -, hspecifiers⟩ := bind_eq_ok h
  obtain ⟨specifiers, -, hjavascript⟩ := bind_eq_ok hspecifiers
  obtain ⟨javascript, -, hgenerated⟩ := bind_eq_ok hjavascript
  rw [← Except.ok.inj hgenerated]

theorem buildFile_of_ok {file : Path} {generated : GeneratedFile} (shelf : Shelf)
    (h : options.compileFile disk catalog file = .ok generated) :
    options.buildFile (Store.onShelf disk) catalog shelf file =
      (.ok generated, shelf.write (options.outputPath file) generated.javascript) := by
  rw [← output_of_compileFile h]
  unfold buildFile
  simp only [Store.onShelf, h]

theorem buildFile_of_error {file : Path} {error : CompileError} (shelf : Shelf)
    (h : options.compileFile disk catalog file = .error error) :
    options.buildFile (Store.onShelf disk) catalog shelf file = (.error error, shelf) := by
  unfold buildFile
  simp only [Store.onShelf, h]

theorem parts_cons_of_ok {file : Path} {generated : GeneratedFile}
    (h : options.compileFile disk catalog file = .ok generated) (rest : List Path) :
    options.modules disk catalog (file :: rest) =
        generated :: options.modules disk catalog rest ∧
      options.failures disk catalog (file :: rest) = options.failures disk catalog rest ∧
      options.texts disk catalog (file :: rest) =
        (options.outputPath file, generated.javascript) :: options.texts disk catalog rest := by
  simp [modules, failures, texts, h, Except.toOption]

theorem parts_cons_of_error {file : Path} {error : CompileError}
    (h : options.compileFile disk catalog file = .error error) (rest : List Path) :
    options.modules disk catalog (file :: rest) = options.modules disk catalog rest ∧
      options.failures disk catalog (file :: rest) =
        error :: options.failures disk catalog rest ∧
      options.texts disk catalog (file :: rest) = options.texts disk catalog rest := by
  simp [modules, failures, texts, h, Except.toOption]

/-- A build that is not strict goes on after every failure. -/
theorem buildFiles_of_not_strict (hstrict : options.strict = false) (shelf : Shelf)
    (files : List Path) :
    options.buildFiles (Store.onShelf disk) catalog shelf files =
      ⟨options.modules disk catalog files, options.failures disk catalog files,
        shelf.writeAll (options.texts disk catalog files)⟩ := by
  induction files generalizing shelf with
  | nil => rfl
  | cons file rest ih =>
      cases hfile : options.compileFile disk catalog file with
      | ok generated =>
          obtain ⟨hmodules, hfailures, htexts⟩ := parts_cons_of_ok hfile rest
          rw [buildFiles, buildFile_of_ok shelf hfile, hmodules, hfailures, htexts,
            Shelf.writeAll_cons]
          simp only [ih]
      | error error =>
          obtain ⟨hmodules, hfailures, htexts⟩ := parts_cons_of_error hfile rest
          rw [buildFiles, buildFile_of_error shelf hfile, hmodules, hfailures, htexts]
          simp only [hstrict, Bool.false_eq_true, if_false, ih]

/-- As long as files compile, it makes no difference whether a build is strict. -/
theorem buildFiles_append (shelf : Shelf) {before : List Path} (rest : List Path)
    (hbefore : ∀ file ∈ before, ∃ generated,
      options.compileFile disk catalog file = .ok generated) :
    options.buildFiles (Store.onShelf disk) catalog shelf (before ++ rest) =
      let progress := options.buildFiles (Store.onShelf disk) catalog
        (shelf.writeAll (options.texts disk catalog before)) rest
      { progress with files := options.modules disk catalog before ++ progress.files } := by
  induction before generalizing shelf with
  | nil => rfl
  | cons file before ih =>
      rw [List.forall_mem_cons] at hbefore
      obtain ⟨⟨generated, hfile⟩, hbefore⟩ := hbefore
      obtain ⟨hmodules, -, htexts⟩ := parts_cons_of_ok hfile before
      rw [List.cons_append, buildFiles, buildFile_of_ok shelf hfile, hmodules, htexts,
        Shelf.writeAll_cons]
      simp only [ih _ hbefore, List.cons_append]

theorem buildFiles_of_compiles (shelf : Shelf) {files : List Path}
    (hfiles : ∀ file ∈ files, ∃ generated,
      options.compileFile disk catalog file = .ok generated) :
    options.buildFiles (Store.onShelf disk) catalog shelf files =
      ⟨options.modules disk catalog files, [],
        shelf.writeAll (options.texts disk catalog files)⟩ := by
  have happend := buildFiles_append shelf [] hfiles
  simp only [List.append_nil, buildFiles] at happend
  exact happend

/-- A strict build ends with the first failure. -/
theorem buildFiles_of_strict (hstrict : options.strict = true) (shelf : Shelf)
    {before : List Path} {file : Path} {error : CompileError} (after : List Path)
    (hbefore : ∀ earlier ∈ before, ∃ generated,
      options.compileFile disk catalog earlier = .ok generated)
    (hfile : options.compileFile disk catalog file = .error error) :
    options.buildFiles (Store.onShelf disk) catalog shelf (before ++ file :: after) =
      ⟨options.modules disk catalog before, [error],
        shelf.writeAll (options.texts disk catalog before)⟩ := by
  rw [buildFiles_append shelf (file :: after) hbefore, buildFiles, buildFile_of_error _ hfile]
  simp only [hstrict, if_true, List.append_nil]

theorem failures_eq_nil_iff {files : List Path} :
    options.failures disk catalog files = [] ↔
      ∀ file ∈ files, ∃ generated, options.compileFile disk catalog file = .ok generated := by
  rw [failures, List.filterMap_eq_nil_iff]
  apply forall₂_congr
  intro file hfile
  cases options.compileFile disk catalog file <;> simp

/-- The first failure is that of the file before which all files compile. -/
theorem exists_of_failures_eq_cons {files : List Path} {error : CompileError}
    {rest : List CompileError} (h : options.failures disk catalog files = error :: rest) :
    ∃ before file after, files = before ++ file :: after ∧
      (∀ earlier ∈ before, ∃ generated,
        options.compileFile disk catalog earlier = .ok generated) ∧
      options.compileFile disk catalog file = .error error := by
  obtain ⟨before, file, after, hfiles, hbefore, hfile, -⟩ := List.filterMap_eq_cons_iff.mp h
  refine ⟨before, file, after, hfiles, ?_, ?_⟩
  · apply failures_eq_nil_iff.mp
    exact List.filterMap_eq_nil_iff.mpr hbefore
  · split at hfile
    · cases hfile
    · next found hfound =>
        rw [hfound, Option.some.inj hfile]

theorem pairwise_texts {files : List Path}
    (hfiles : files.Pairwise fun first second =>
      (options.outputPath first).same (options.outputPath second) = false) :
    (options.texts disk catalog files).Pairwise fun first second =>
      first.1.same second.1 = false := by
  rw [texts, List.pairwise_filterMap]
  refine hfiles.imp ?_
  intro first second hne entry hentry other hother
  obtain ⟨_, -, hentry⟩ := Option.map_eq_some_iff.mp hentry
  obtain ⟨_, -, hother⟩ := Option.map_eq_some_iff.mp hother
  rw [← congrArg Prod.fst hentry, ← congrArg Prod.fst hother, hne]

def withStrict (options : BuildOptions) (strict : Bool) : BuildOptions :=
  { options with strict := strict }

/-- What becomes of a single file does not depend on whether the build is strict. -/
theorem compileFile_withStrict (options : BuildOptions) (strict : Bool) :
    (options.withStrict strict).compileFile = options.compileFile :=
  rfl

theorem modules_withStrict (options : BuildOptions) (strict : Bool) :
    (options.withStrict strict).modules = options.modules :=
  rfl

theorem failures_withStrict (options : BuildOptions) (strict : Bool) :
    (options.withStrict strict).failures = options.failures :=
  rfl

theorem texts_withStrict (options : BuildOptions) (strict : Bool) :
    (options.withStrict strict).texts = options.texts :=
  rfl

/-- The build onto an empty shelf, strict or not. -/
def buildOnShelf (options : BuildOptions) (disk : Disk) (strict : Bool) :
    Except CompileError (List GeneratedFile) × Shelf :=
  (options.withStrict strict).build (Store.onShelf disk) Shelf.empty

theorem buildOnShelf_of_error {error : CompileError} (strict : Bool)
    (herror : disk.loadCatalog options.stepFiles = .error error ∨
      (∃ catalog, disk.loadCatalog options.stepFiles = .ok catalog) ∧
        disk.discover options.source = .error error) :
    options.buildOnShelf disk strict = (.error error, Shelf.empty) := by
  unfold buildOnShelf build
  rcases herror with hcatalog | ⟨⟨catalog, hcatalog⟩, hsources⟩
  · simp only [Store.onShelf, withStrict, hcatalog]
    rfl
  · simp only [Store.onShelf, withStrict, hcatalog, hsources]
    rfl

theorem buildOnShelf_of_ok {sources : List Path} (strict : Bool)
    (hcatalog : disk.loadCatalog options.stepFiles = .ok catalog)
    (hsources : disk.discover options.source = .ok sources) {progress : Progress Shelf}
    (hprogress : (options.withStrict strict).buildFiles (Store.onShelf disk) catalog Shelf.empty
      sources = progress) :
    options.buildOnShelf disk strict =
      ((options.withStrict strict).outcome progress.files progress.errors, progress.state) := by
  subst hprogress
  unfold buildOnShelf build
  have hplan : (do
      let catalog ← disk.loadCatalog (options.withStrict strict).stepFiles
      let sources ← disk.discover (options.withStrict strict).source
      return (catalog, sources) : Except CompileError (Catalog × List Path)) =
        .ok (catalog, sources) := by
    simp only [withStrict, hcatalog, hsources]
    rfl
  simp only [Store.onShelf, hplan]

theorem buildOnShelf_lenient {sources : List Path}
    (hcatalog : disk.loadCatalog options.stepFiles = .ok catalog)
    (hsources : disk.discover options.source = .ok sources) :
    options.buildOnShelf disk false =
      (if options.failures disk catalog sources = [] then .ok (options.modules disk catalog sources)
        else .error (.multiple (options.failures disk catalog sources)),
      Shelf.empty.writeAll (options.texts disk catalog sources)) := by
  rw [buildOnShelf_of_ok false hcatalog hsources (buildFiles_of_not_strict rfl _ _),
    modules_withStrict, failures_withStrict, texts_withStrict]
  cases options.failures disk catalog sources with
  | nil => rfl
  | cons error rest => rfl

theorem buildOnShelf_strict_of_compiles {sources : List Path}
    (hcatalog : disk.loadCatalog options.stepFiles = .ok catalog)
    (hsources : disk.discover options.source = .ok sources)
    (hcompiles : ∀ file ∈ sources, ∃ generated,
      options.compileFile disk catalog file = .ok generated) :
    options.buildOnShelf disk true =
      (.ok (options.modules disk catalog sources),
        Shelf.empty.writeAll (options.texts disk catalog sources)) := by
  rw [← compileFile_withStrict options true] at hcompiles
  rw [buildOnShelf_of_ok true hcatalog hsources (buildFiles_of_compiles _ hcompiles),
    modules_withStrict, texts_withStrict]
  rfl

theorem buildOnShelf_strict_of_error {before after : List Path} {file : Path}
    {error : CompileError} (hcatalog : disk.loadCatalog options.stepFiles = .ok catalog)
    (hsources : disk.discover options.source = .ok (before ++ file :: after))
    (hbefore : ∀ earlier ∈ before, ∃ generated,
      options.compileFile disk catalog earlier = .ok generated)
    (hfile : options.compileFile disk catalog file = .error error) :
    options.buildOnShelf disk true =
      (.error error, Shelf.empty.writeAll (options.texts disk catalog before)) := by
  rw [← compileFile_withStrict options true] at hbefore hfile
  rw [buildOnShelf_of_ok true hcatalog hsources (buildFiles_of_strict rfl _ after hbefore hfile),
    texts_withStrict]
  rfl

/-- What a build onto an empty shelf does, by what becomes of its single sources. No two sources
share an output path, so that the shelf holds the texts of the sources that compile and no others:
of all sources, or of those before the first failure if the build is strict. Without sources or a
catalog, the shelf stays empty. -/
theorem buildOnShelf_follows_compileFile (options : BuildOptions) (disk : Disk) :
    (∀ strict error,
      (disk.loadCatalog options.stepFiles = .error error ∨
        (∃ catalog, disk.loadCatalog options.stepFiles = .ok catalog) ∧
          disk.discover options.source = .error error) →
      options.buildOnShelf disk strict = (.error error, Shelf.empty)) ∧
    ∀ catalog sources, disk.loadCatalog options.stepFiles = .ok catalog →
      disk.discover options.source = .ok sources →
      (sources.Pairwise fun first second =>
        (options.outputPath first).same (options.outputPath second) = false) ∧
      (options.buildOnShelf disk false).2.files.Perm (options.texts disk catalog sources) ∧
      (options.failures disk catalog sources = [] →
        (options.buildOnShelf disk false).1 = .ok (options.modules disk catalog sources) ∧
        options.buildOnShelf disk true = options.buildOnShelf disk false) ∧
      ∀ error rest, options.failures disk catalog sources = error :: rest →
        (options.buildOnShelf disk false).1 = .error (.multiple (error :: rest)) ∧
        ∃ before file after, sources = before ++ file :: after ∧
          (∀ earlier ∈ before, ∃ generated,
            options.compileFile disk catalog earlier = .ok generated) ∧
          options.compileFile disk catalog file = .error error ∧
          (options.buildOnShelf disk true).1 = .error error ∧
          (options.buildOnShelf disk true).2.files.Perm (options.texts disk catalog before) := by
  refine ⟨fun strict error herror => buildOnShelf_of_error strict herror, ?_⟩
  intro catalog sources hcatalog hsources
  have hdistinct := Disk.pairwise_outputPath_of_discover hsources
  have hlenient := buildOnShelf_lenient hcatalog hsources
  refine ⟨hdistinct, ?_, ?_, ?_⟩
  · rw [hlenient]
    exact Shelf.empty_writeAll_perm (pairwise_texts hdistinct)
  · intro hfailures
    rw [hlenient, if_pos hfailures]
    exact ⟨rfl, buildOnShelf_strict_of_compiles hcatalog hsources
      (failures_eq_nil_iff.mp hfailures)⟩
  · intro error rest hfailures
    rw [hlenient, hfailures]
    refine ⟨rfl, ?_⟩
    obtain ⟨before, file, after, rfl, hbefore, hfile⟩ := exists_of_failures_eq_cons hfailures
    have hstrict := buildOnShelf_strict_of_error hcatalog hsources hbefore hfile
    refine ⟨before, file, after, rfl, hbefore, hfile, ?_⟩
    rw [hstrict]
    exact ⟨rfl, Shelf.empty_writeAll_perm
      (pairwise_texts (hdistinct.sublist (List.sublist_append_left _ _)))⟩

/-- A disk with three feature files, of which the second is no feature file by its text. -/
def partlyBrokenDisk : Disk where
  root := .directory [(.ofText "src", .directory [(.ofText "a.feature", .file (.text "Feature: A")),
    (.ofText "b.feature", .file (.text "")), (.ofText "c.feature", .file (.text "Feature: C"))])]
  workingDirectory := []

def partlyBrokenOptions : BuildOptions :=
  ⟨⟨"src"⟩, ⟨"out"⟩, [], false⟩

def partlyBrokenSources : List Path :=
  [⟨"src/a.feature"⟩, ⟨"src/b.feature"⟩, ⟨"src/c.feature"⟩]

theorem buildOnShelf_partlyBrokenDisk :
    partlyBrokenDisk.loadCatalog partlyBrokenOptions.stepFiles = .ok .empty ∧
      partlyBrokenDisk.discover partlyBrokenOptions.source = .ok partlyBrokenSources ∧
      (partlyBrokenOptions.buildOnShelf partlyBrokenDisk false).2.files.Perm
        (partlyBrokenOptions.texts partlyBrokenDisk .empty partlyBrokenSources) ∧
      (partlyBrokenOptions.buildOnShelf partlyBrokenDisk false).1 =
        .error (.multiple [.parse ⟨"src/b.feature"⟩ ⟨1, .missingFeature⟩]) ∧
      (partlyBrokenOptions.buildOnShelf partlyBrokenDisk true).1 =
        .error (.parse ⟨"src/b.feature"⟩ ⟨1, .missingFeature⟩) := by
  have hcatalog : partlyBrokenDisk.loadCatalog partlyBrokenOptions.stepFiles = .ok .empty := rfl
  have hsources : partlyBrokenDisk.discover partlyBrokenOptions.source =
      .ok partlyBrokenSources := by
    with_unfolding_all rfl
  have hfailures : partlyBrokenOptions.failures partlyBrokenDisk .empty partlyBrokenSources =
      [.parse ⟨"src/b.feature"⟩ ⟨1, .missingFeature⟩] := by
    with_unfolding_all rfl
  obtain ⟨-, hbuild⟩ := buildOnShelf_follows_compileFile partlyBrokenOptions partlyBrokenDisk
  obtain ⟨-, hfiles, -, herror⟩ := hbuild _ _ hcatalog hsources
  obtain ⟨hlenient, _, _, _, -, -, -, hstrict, -⟩ := herror _ _ hfailures
  exact ⟨hcatalog, hsources, hfiles, hlenient, hstrict⟩

end FeatureCompiler.BuildOptions
