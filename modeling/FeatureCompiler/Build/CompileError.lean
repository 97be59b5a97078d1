import FeatureCompiler.Catalog.Manifest
import FeatureCompiler.Catalog.Script
import FeatureCompiler.Disk.Fault
import FeatureCompiler.Feature.ParseError
import FeatureCompiler.Plan.TestPlan

/-!
Why a build, or one file of it, fails.
-/

namespace FeatureCompiler

/-- Why a file declares no step module. -/
inductive StepFileFault where
  | script (fault : Script.Fault)
  | manifest (fault : ManifestFault)
deriving Repr, DecidableEq

def StepFileFault.message : StepFileFault → String
  | .script fault => fault.message
  | .manifest fault => fault.message

inductive CompileError where
  | disk (fault : DiskFault)
  /-- A directory below the source directory cannot be read. -/
  | walk (directory : Path) (fault : DiskFault)
  | parse (file : Path) (error : ParseError)
  | unknown (file : Path) (name : UnknownName)
  | stepFile (path : Path) (fault : StepFileFault)
  | outputWrite (path : Path) (fault : DiskFault)
  | fileNotFound (path : Path)
  /-- What several files of one build failed with, in order. -/
  | multiple (errors : List CompileError)
deriving Repr

namespace CompileError

def walkMessage (directory : Path) (fault : DiskFault) : String :=
  s!"IO error for operation on {directory.shown}: {fault.message}"

mutual

def message : CompileError → String
  | .disk fault => s!"I/O error: {fault.message}"
  | .walk directory fault => s!"I/O error: {walkMessage directory fault}"
  | .parse file error => s!"Parse error in {file.shown}: {error.message}"
  | .unknown file (.hook kind key) => s!"Unknown {kind.key} hook '{key}' in {file.shown}"
  | .unknown file (.step text line) => s!"Unknown step '{text}' in {file.shown} (line {line})"
  | .stepFile path fault => s!"Invalid step file {path.shown}: {fault.message}"
  | .outputWrite path fault => s!"Failed to write {path.shown}: {fault.message}"
  | .fileNotFound path => s!"File not found: {path.shown}"
  | .multiple errors => "Multiple errors occurred:\n" ++ "\n".intercalate (itemMessages errors)

/-- The messages of several errors as items of a list. -/
def itemMessages : List CompileError → List String
  | [] => []
  | error :: rest => ("  - " ++ error.message) :: itemMessages rest

end

/-- What an error was caused by, where that is an error of its own, and the causes of that. -/
def causes : CompileError → List String
  | .disk fault => [fault.message]
  | .walk directory fault => [walkMessage directory fault, fault.message]
  | .parse _ error => [error.message]
  | .outputWrite _ fault => [fault.message]
  | _ => []

end CompileError

end FeatureCompiler
