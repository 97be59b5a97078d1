import FeatureCompiler.Build.Compile
import FeatureCompiler.Build.Discover
import FeatureCompiler.Build.Shelf

/-!
Builds. Every feature file is compiled and stored before the next one is looked at; a file is stored
only when all of it compiled. A strict build ends with the first failure, any other goes on and
reports all failures together.
-/

namespace FeatureCompiler

/-- A place for generated modules, with the disk that the sources are read from meanwhile. -/
structure Store (σ : Type) where
  disk : σ → Disk
  write : σ → Path → String → Except DiskFault Unit × σ

/-- Modules go to the disk that is read from. -/
def Store.onDisk : Store Disk where
  disk := id
  write disk path text := disk.writeFile path (.text text)

/-- Modules go to a shelf, and the disk stays as it is. -/
def Store.onShelf (disk : Disk) : Store Shelf where
  disk _ := disk
  write shelf path text := (.ok (), shelf.write path text)

/-- What became of some files, and the store after them. -/
structure Progress (σ : Type) where
  files : List GeneratedFile
  errors : List CompileError
  state : σ

namespace BuildOptions

variable {σ : Type}

/-- Compiles one file and stores its module. -/
def buildFile (options : BuildOptions) (store : Store σ) (catalog : Catalog) (state : σ)
    (file : Path) : Except CompileError GeneratedFile × σ :=
  match options.compileFile (store.disk state) catalog file with
  | .error error => (.error error, state)
  | .ok generated =>
      match store.write state generated.output generated.javascript with
      | (.ok (), state) => (.ok generated, state)
      | (.error fault, state) => (.error (.outputWrite generated.output fault), state)

def buildFiles (options : BuildOptions) (store : Store σ) (catalog : Catalog) (state : σ) :
    List Path → Progress σ
  | [] => ⟨[], [], state⟩
  | file :: rest =>
      match options.buildFile store catalog state file with
      | (.ok generated, state) =>
          let progress := options.buildFiles store catalog state rest
          { progress with files := generated :: progress.files }
      | (.error error, state) =>
          if options.strict then ⟨[], [error], state⟩
          else
            let progress := options.buildFiles store catalog state rest
            { progress with errors := error :: progress.errors }

/-- The result of a build with these errors. -/
def outcome (options : BuildOptions) (files : List GeneratedFile) :
    List CompileError → Except CompileError (List GeneratedFile)
  | [] => .ok files
  | error :: rest =>
      if options.strict then .error error else .error (.multiple (error :: rest))

/-- The whole build. Nothing is stored if a step file or the source directory is missing. -/
def build (options : BuildOptions) (store : Store σ) (state : σ) :
    Except CompileError (List GeneratedFile) × σ :=
  let disk := store.disk state
  let plan : Except CompileError (Catalog × List Path) := do
    let catalog ← disk.loadCatalog options.stepFiles
    let sources ← disk.discover options.source
    return (catalog, sources)
  match plan with
  | .error error => (.error error, state)
  | .ok (catalog, sources) =>
      let progress := options.buildFiles store catalog state sources
      (options.outcome progress.files progress.errors, progress.state)

end BuildOptions

end FeatureCompiler
