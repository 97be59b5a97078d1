import FeatureCompiler.Catalog.StepModule
import FeatureCompiler.Script.Export
import FeatureCompiler.Script.Object

/-!
Step modules written as scripts. The script is never run: the keys of the object that it exports by
default are read off its text, and a hook key has to stand for an object literal.
-/

namespace FeatureCompiler.StepModule

open Script

/-- The module with one more property of the exported object. -/
def addProperty (module : StepModule) (property : Property) : Except Fault StepModule :=
  match HookKind.ofKey? property.key, property.hooks? with
  | none, _ => .ok (module.addStep property.key)
  | some kind, some keys => .ok (module.addHooks kind keys)
  | some _, none => .error (.hooksNotLiteral property.key)

def ofScript (path : Path) (source : String) : Except Fault StepModule := do
  let lexemes ← lexemes source.toList
  match exportedObject? lexemes with
  | none => .error .noDefaultExport
  | some object =>
      let (properties, _) ← readObject object
      properties.foldlM addProperty (empty path)

end FeatureCompiler.StepModule
