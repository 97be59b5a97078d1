import FeatureCompiler.Build.CompileError
import FeatureCompiler.Disk.Basic

/-!
Step files on a disk. A file with the extension `json` is a manifest, every other one a script.
-/

namespace FeatureCompiler

/-- The module that the text of a step file declares. -/
def StepModule.ofFile (path : Path) (source : String) : Except CompileError StepModule :=
  if path.extension? = some (Text.bytes "json") then
    (ofManifest path source).mapError fun fault => .stepFile path (.manifest fault)
  else (ofScript path source).mapError fun fault => .stepFile path (.script fault)

namespace Disk

def loadStepFile (disk : Disk) (path : Path) : Except CompileError StepModule :=
  if disk.contains path then do
    let source ← (disk.readText path).mapError .disk
    StepModule.ofFile path source
  else .error (.fileNotFound path)

/-- The catalog of some step files in order. The first that cannot be loaded fails. -/
def loadCatalog (disk : Disk) (paths : List Path) : Except CompileError Catalog := do
  let modules ← paths.mapM disk.loadStepFile
  return Catalog.empty.addAll modules

end Disk

end FeatureCompiler
