import FeatureCompiler.Catalog.Basic
import FeatureCompiler.Path.Extension
import FeatureCompiler.Path.Relative

/-!
Where the module of a feature file goes: to the same place below the output directory that the file
has below the source directory. From there it imports the step scripts by relative paths.
-/

namespace FeatureCompiler

structure BuildOptions where
  source : Path
  output : Path
  stepFiles : List Path
  /-- Whether the first file that fails ends the build. -/
  strict : Bool
deriving Repr, DecidableEq

namespace BuildOptions

/-- The output path of a feature file. A file outside the source directory goes to the top of the
output directory. -/
def outputPath (options : BuildOptions) (file : Path) : Path :=
  let relative := match file.stripBase? options.source with
    | some rest => rest
    | none => ⟨file.fileName?.getD []⟩
  (options.output.join relative).withExtension "js"

/-- The name of a feature file in its generated module. -/
def sourceName (options : BuildOptions) (file : Path) : String :=
  Path.slashed ((file.stripBase? options.source).getD file).components

end BuildOptions

/-- How a module at an output path imports the scripts of a catalog. -/
def Catalog.specifiers (catalog : Catalog) (workingDirectory : Location) (output : Path) :
    Except DiskFault (List String) := do
  let start ← output.directory.absolute workingDirectory
  catalog.scripts.mapM fun script => do
    let target ← script.absolute workingDirectory
    return Path.specifier (Path.relative start target)

end FeatureCompiler
