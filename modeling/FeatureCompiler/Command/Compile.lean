import FeatureCompiler.Build.Run
import FeatureCompiler.Command.Arguments
import FeatureCompiler.Command.Result

/-!
The compiler command: it builds the feature files of a directory onto the disk and says how many
there were, or why it failed.
-/

namespace FeatureCompiler.Command

def versionText : String := "annotestc 0.1.0\n"

def usage : String :=
  "Usage: annotestc [OPTIONS] --src <DIR> --dest <DIR> --steps <FILE>...\n"

/-- A variable of the environment as it is shown in the help. -/
def shownVariable (environment : List (String × String)) (name : String) : String :=
  "[env: " ++ name ++ "=" ++ (environment.lookup name).getD "" ++ "]"

def helpText (environment : List (String × String)) : String :=
  "Compiles annotated feature files into end-to-end test modules\n\n" ++ usage ++
    "\nOptions:\n" ++
    "      --src <DIR>        Directory containing .feature files " ++
      shownVariable environment sourceVariable ++ "\n" ++
    "      --dest <DIR>       Directory generated test modules are written to " ++
      shownVariable environment outputVariable ++ "\n" ++
    "      --steps <FILE>...  Step-definition module " ++
      "(repeatable; later files override earlier ones)\n" ++
    "      --strict           Stop at the first failing feature file\n" ++
    "  -v, --verbose          Enable verbose output\n" ++
    "  -h, --help             Print help\n" ++
    "  -V, --version          Print version\n"

/-- What is printed about a build that succeeded. -/
def buildReport (verbose : Bool) (files : List GeneratedFile) : String :=
  (if verbose then
    String.join (files.map fun file => file.source.shown ++ " -> " ++ file.output.shown ++ "\n")
  else "") ++
    "Compiled " ++ toString files.length ++ " feature file(s)\n"

/-- What is printed about a build that failed. The causes of an error follow it. -/
def failureReport (source : Path) (error : CompileError) : String :=
  "Compilation failed: failed to compile features in " ++ source.shown ++ ": " ++ error.message ++
    String.join (error.causes.map (": " ++ ·)) ++ "\n"

/-- The command with its arguments and the environment that it sees. -/
def compile (arguments : List String) (environment : List (String × String)) (disk : Disk) :
    Result :=
  let request : Except Stop (BuildOptions × Bool) := do
    let read ← Arguments.none.read .nothing arguments
    return (← read.toOptions environment, read.verbose)
  match request with
  | .error .help => ⟨0, helpText environment, "", disk⟩
  | .error .version => ⟨0, versionText, "", disk⟩
  | .error .misuse => ⟨2, "", usage, disk⟩
  | .ok (options, verbose) =>
      match options.build .onDisk disk with
      | (.ok files, disk) => ⟨0, buildReport verbose files, "", disk⟩
      | (.error error, disk) => ⟨1, "", failureReport options.source error, disk⟩

end FeatureCompiler.Command
