import FeatureCompiler.Proofs.Build.Batch

/-!
What a build starts from, what one file adds to it, and what it reports. All of it holds for every
store: no file fails in a way that a build does not report, and what a build reports is what single
files failed with.
-/

namespace FeatureCompiler

namespace CompileError

/-- The single errors that an error of a build stands for. -/
def parts : CompileError → List CompileError
  | .multiple errors => errors
  | error => [error]

/-- Whether a module compiled and could not be written. -/
def isOutputWrite : CompileError → Bool
  | .outputWrite _ _ => true
  | _ => false

end CompileError

/-- The single errors that the result of a build reports. -/
def reportedErrors : Except CompileError (List GeneratedFile) → List CompileError
  | .ok _ => []
  | .error error => error.parts

namespace BuildOptions

variable {options : BuildOptions} {catalog : Catalog} {disk : Disk}

theorem source_of_compileFile {file : Path} {generated : GeneratedFile}
    (h : options.compileFile disk catalog file = .ok generated) : generated.source = file := by
  obtain ⟨text, -, hspecifiers⟩ := bind_eq_ok h
  obtain ⟨specifiers, -, hjavascript⟩ := bind_eq_ok hspecifiers
  obtain ⟨javascript, -, hgenerated⟩ := bind_eq_ok hjavascript
  rw [← Except.ok.inj hgenerated]

/-- A file does not compile because of the disk, its text or the catalog. -/
theorem error_of_compileFile {file : Path} {error : CompileError}
    (h : options.compileFile disk catalog file = .error error) :
    (∃ fault, error = .disk fault) ∨ (∃ fault, error = .parse file fault) ∨
      ∃ name, error = .unknown file name := by
  rcases bind_eq_error h with hread | ⟨text, -, h⟩
  · exact Or.inl (exists_of_mapError_eq_error hread)
  · rcases bind_eq_error h with hspecifiers | ⟨specifiers, -, h⟩
    · exact Or.inl (exists_of_mapError_eq_error hspecifiers)
    · rcases bind_eq_error h with htext | ⟨javascript, -, h⟩
      · rcases bind_eq_error htext with hparse | ⟨document, -, h⟩
        · exact Or.inr (Or.inl (exists_of_mapError_eq_error hparse))
        · rcases bind_eq_error h with hplan | ⟨plan, -, h⟩
          · exact Or.inr (Or.inr (exists_of_mapError_eq_error hplan))
          · cases h
      · cases h

section Store

variable {σ : Type} {store : Store σ} {state later : σ} {file : Path}

/-- The three things that can become of one file. -/
theorem buildFile_cases (options : BuildOptions) (store : Store σ) (catalog : Catalog) (state : σ)
    (file : Path) :
    (∃ error, options.compileFile (store.disk state) catalog file = .error error ∧
      options.buildFile store catalog state file = (.error error, state)) ∨
    ∃ generated later, options.compileFile (store.disk state) catalog file = .ok generated ∧
      (store.write state generated.output generated.javascript = (.ok (), later) ∧
        options.buildFile store catalog state file = (.ok generated, later) ∨
      ∃ fault, store.write state generated.output generated.javascript = (.error fault, later) ∧
        options.buildFile store catalog state file =
          (.error (.outputWrite generated.output fault), later)) := by
  unfold buildFile
  cases options.compileFile (store.disk state) catalog file with
  | error error => exact Or.inl ⟨error, rfl, rfl⟩
  | ok generated =>
      right
      cases hwrite : store.write state generated.output generated.javascript with
      | mk outcome later =>
          cases outcome with
          | ok done => exact ⟨generated, later, rfl, Or.inl ⟨hwrite, by simp [hwrite]⟩⟩
          | error fault =>
              exact ⟨generated, later, rfl, Or.inr ⟨fault, hwrite, by simp [hwrite]⟩⟩

theorem compileFile_of_buildFile_ok {generated : GeneratedFile}
    (h : options.buildFile store catalog state file = (.ok generated, later)) :
    options.compileFile (store.disk state) catalog file = .ok generated := by
  rcases buildFile_cases options store catalog state file with ⟨error, -, hbuilt⟩ |
    ⟨found, written, hcompiled, ⟨-, hbuilt⟩ | ⟨fault, -, hbuilt⟩⟩
  · cases h.symm.trans hbuilt
  · cases h.symm.trans hbuilt
    exact hcompiled
  · cases h.symm.trans hbuilt

theorem parts_of_buildFile_error {error : CompileError}
    (h : options.buildFile store catalog state file = (.error error, later)) :
    error.parts = [error] ∧
      ∀ path fault, error = .outputWrite path fault → path = options.outputPath file := by
  rcases buildFile_cases options store catalog state file with ⟨found, hcompiled, hbuilt⟩ |
    ⟨generated, written, hcompiled, ⟨-, hbuilt⟩ | ⟨fault, -, hbuilt⟩⟩
  · cases h.symm.trans hbuilt
    rcases error_of_compileFile hcompiled with ⟨_, rfl⟩ | ⟨_, rfl⟩ | ⟨_, rfl⟩
    · exact ⟨rfl, nofun⟩
    · exact ⟨rfl, nofun⟩
    · exact ⟨rfl, nofun⟩
  · cases h.symm.trans hbuilt
  · cases h.symm.trans hbuilt
    refine ⟨rfl, ?_⟩
    intro path fault hpath
    cases hpath
    exact output_of_compileFile hcompiled

theorem buildFiles_cons_of_ok {generated : GeneratedFile}
    (h : options.buildFile store catalog state file = (.ok generated, later)) (rest : List Path) :
    options.buildFiles store catalog state (file :: rest) =
      { options.buildFiles store catalog later rest with
        files := generated :: (options.buildFiles store catalog later rest).files } := by
  rw [buildFiles, h]

theorem buildFiles_cons_of_error {error : CompileError}
    (h : options.buildFile store catalog state file = (.error error, later)) (rest : List Path) :
    options.buildFiles store catalog state (file :: rest) =
      if options.strict then ⟨[], [error], later⟩
      else
        { options.buildFiles store catalog later rest with
          errors := error :: (options.buildFiles store catalog later rest).errors } := by
  rw [buildFiles, h]

/-- Modules are stored in the order of their sources, each under its own output path. -/
theorem outputs_sublist (options : BuildOptions) (store : Store σ) (catalog : Catalog) (state : σ)
    (files : List Path) :
    ((options.buildFiles store catalog state files).files.map GeneratedFile.output).Sublist
      (files.map options.outputPath) := by
  induction files generalizing state with
  | nil => exact List.Sublist.refl _
  | cons file rest ih =>
      cases hbuilt : options.buildFile store catalog state file with
      | mk outcome later =>
          cases outcome with
          | ok generated =>
              rw [buildFiles_cons_of_ok hbuilt, List.map_cons, List.map_cons,
                output_of_compileFile (compileFile_of_buildFile_ok hbuilt)]
              exact (ih later).cons_cons _
          | error error =>
              rw [buildFiles_cons_of_error hbuilt, List.map_cons]
              split
              · exact List.nil_sublist _
              · exact (ih later).cons _

/-- A build has a single error for each file that fails, and only one if it is strict. -/
theorem errors_of_buildFiles (options : BuildOptions) (store : Store σ) (catalog : Catalog)
    (state : σ) (files : List Path) :
    (∀ error ∈ (options.buildFiles store catalog state files).errors, error.parts = [error] ∧
      ∀ path fault, error = .outputWrite path fault → path ∈ files.map options.outputPath) ∧
    (options.strict = true → (options.buildFiles store catalog state files).errors.length ≤ 1) := by
  induction files generalizing state with
  | nil => exact ⟨nofun, fun _ => Nat.zero_le 1⟩
  | cons file rest ih =>
      cases hbuilt : options.buildFile store catalog state file with
      | mk outcome later =>
          obtain ⟨hparts, hlength⟩ := ih later
          have hrest : ∀ error ∈ (options.buildFiles store catalog later rest).errors,
              error.parts = [error] ∧ ∀ path fault, error = .outputWrite path fault →
                path ∈ (file :: rest).map options.outputPath := by
            intro error herror
            obtain ⟨hsingle, hpath⟩ := hparts error herror
            exact ⟨hsingle, fun path fault h => List.mem_cons_of_mem _ (hpath path fault h)⟩
          cases outcome with
          | ok generated =>
              rw [buildFiles_cons_of_ok hbuilt]
              exact ⟨hrest, hlength⟩
          | error error =>
              obtain ⟨hsingle, hpath⟩ := parts_of_buildFile_error hbuilt
              have hfirst : error.parts = [error] ∧ ∀ path fault,
                  error = .outputWrite path fault →
                    path ∈ (file :: rest).map options.outputPath := by
                refine ⟨hsingle, ?_⟩
                intro path fault h
                rw [hpath path fault h]
                exact List.mem_cons_self
              rw [buildFiles_cons_of_error hbuilt]
              by_cases hstrict : options.strict = true
              · rw [if_pos hstrict]
                exact ⟨List.forall_mem_singleton.mpr hfirst, fun _ => Nat.le_refl 1⟩
              · rw [if_neg hstrict]
                exact ⟨List.forall_mem_cons.mpr ⟨hfirst, hrest⟩,
                  fun h => absurd h hstrict⟩

/-- A build reports the errors of its files, all of them. -/
theorem reportedErrors_outcome (options : BuildOptions) (store : Store σ) (catalog : Catalog)
    (state : σ) (files : List Path) (generated : List GeneratedFile) :
    reportedErrors (options.outcome generated
      (options.buildFiles store catalog state files).errors) =
        (options.buildFiles store catalog state files).errors := by
  obtain ⟨hparts, hlength⟩ := errors_of_buildFiles options store catalog state files
  generalize (options.buildFiles store catalog state files).errors = errors at hparts hlength ⊢
  cases errors with
  | nil => rfl
  | cons first rest =>
      by_cases hstrict : options.strict = true
      · have hrest : rest = [] := List.eq_nil_of_length_eq_zero
          (Nat.le_zero.mp (Nat.le_of_succ_le_succ (hlength hstrict)))
        subst hrest
        rw [outcome, if_pos hstrict]
        exact (hparts first List.mem_cons_self).1
      · rw [outcome, if_neg hstrict]
        rfl

theorem eq_of_outcome_eq_ok {files found : List GeneratedFile} {errors : List CompileError}
    (h : options.outcome files errors = .ok found) : files = found := by
  cases errors with
  | nil => exact Except.ok.inj h
  | cons error rest =>
      rw [outcome] at h
      split at h <;> cases h

end Store

/-- What a build starts from: the catalog of its step files, and its sources. -/
def inputs (options : BuildOptions) (disk : Disk) :
    Except CompileError (Catalog × List Path) := do
  let catalog ← disk.loadCatalog options.stepFiles
  let sources ← disk.discover options.source
  return (catalog, sources)

theorem inputs_eq_ok_iff {sources : List Path} :
    options.inputs disk = .ok (catalog, sources) ↔
      disk.loadCatalog options.stepFiles = .ok catalog ∧
        disk.discover options.source = .ok sources := by
  rw [inputs, bind_eq_ok_iff]
  constructor
  · rintro ⟨found, hcatalog, hrest⟩
    obtain ⟨files, hsources, hpair⟩ := bind_eq_ok hrest
    cases hpair
    exact ⟨hcatalog, hsources⟩
  · rintro ⟨hcatalog, hsources⟩
    exact ⟨catalog, hcatalog, bind_eq_ok_iff.mpr ⟨sources, hsources, rfl⟩⟩

theorem build_of_inputs_error {σ : Type} (store : Store σ) {state : σ} {error : CompileError}
    (h : options.inputs (store.disk state) = .error error) :
    options.build store state = (.error error, state) := by
  rw [inputs] at h
  rw [build, h]

theorem build_of_inputs_ok {σ : Type} (store : Store σ) {state : σ} {sources : List Path}
    (h : options.inputs (store.disk state) = .ok (catalog, sources)) :
    options.build store state =
      (options.outcome (options.buildFiles store catalog state sources).files
        (options.buildFiles store catalog state sources).errors,
      (options.buildFiles store catalog state sources).state) := by
  rw [inputs] at h
  rw [build, h]

end BuildOptions

end FeatureCompiler
