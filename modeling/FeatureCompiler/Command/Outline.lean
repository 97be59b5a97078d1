import FeatureCompiler.Command.Result
import FeatureCompiler.Feature.Outline
import FeatureCompiler.Feature.Parse

/-!
The outline command: it prints the outline of one feature file.
-/

namespace FeatureCompiler.Command

def outlineUsage : String :=
  "Usage: annotest-parser <file.feature>\n\n" ++
    "Parse an annotated feature file and dump its document structure\n"

def outline (arguments : List String) (disk : Disk) : Result :=
  match arguments with
  | [file] =>
      match disk.readText (.ofText file) with
      | .error fault => ⟨1, "", s!"Error reading file '{file}': {fault.message}\n", disk⟩
      | .ok text =>
          match Document.parse text with
          | .error error => ⟨1, "", s!"Parse error in '{file}':\n{error.message}\n", disk⟩
          | .ok document => ⟨0, document.outline, "", disk⟩
  | _ => ⟨1, "", outlineUsage, disk⟩

end FeatureCompiler.Command
