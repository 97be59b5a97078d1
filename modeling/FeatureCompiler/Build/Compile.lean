import FeatureCompiler.Build.Layout
import FeatureCompiler.Build.StepFiles
import FeatureCompiler.Feature.Parse
import FeatureCompiler.TestModule.Render

/-!
The compilation of one feature file: its text is parsed, planned against the catalog, and rendered.
-/

namespace FeatureCompiler

structure GeneratedFile where
  source : Path
  output : Path
  javascript : String
deriving Repr, DecidableEq

namespace BuildOptions

/-- The module for the text of a feature file. -/
def compileText (options : BuildOptions) (file : Path) (text : String) (lookup : Lookup)
    (specifiers : List String) : Except CompileError String := do
  let document ← (Document.parse text).mapError (.parse file)
  let plan ← (document.plan lookup).mapError (.unknown file)
  return plan.render (options.sourceName file) specifiers

/-- The module for a feature file on a disk. Nothing is written. -/
def compileFile (options : BuildOptions) (disk : Disk) (catalog : Catalog) (file : Path) :
    Except CompileError GeneratedFile := do
  let text ← (disk.readText file).mapError .disk
  let output := options.outputPath file
  let specifiers ← (catalog.specifiers disk.workingDirectory output).mapError .disk
  let javascript ← options.compileText file text catalog.lookup specifiers
  return ⟨file, output, javascript⟩

end BuildOptions

end FeatureCompiler
