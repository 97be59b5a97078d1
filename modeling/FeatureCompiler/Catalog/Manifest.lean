import FeatureCompiler.Catalog.StepModule
import FeatureCompiler.Json.Reader
import FeatureCompiler.Path.Extension
import FeatureCompiler.Text.Order

/-!
Step modules described by a JSON manifest: an object whose keys are the steps, with the hooks in
objects of their own, and the script that defines them named under `module`. Without a name the
script is the file next to the manifest that differs in its extension.
-/

namespace FeatureCompiler

/-- Why a manifest describes no step module. -/
inductive ManifestFault where
  | notJson (error : Json.Error)
  | notAnObject
  | hooksNotObject (key : String)
deriving Repr, DecidableEq

def ManifestFault.message : ManifestFault → String
  | .notJson error => error.message
  | .notAnObject => "expected a JSON object"
  | .hooksNotObject key => s!"'{key}' must be an object"

/-- Members sorted by key with one more put among them. An earlier one with its key gives way. -/
def insertMember (key : String) (value : Json.Value) :
    List (String × Json.Value) → List (String × Json.Value)
  | [] => [(key, value)]
  | member :: rest =>
      match Text.compareBytes key member.1 with
      | .lt => (key, value) :: member :: rest
      | .eq => (key, value) :: rest
      | .gt => member :: insertMember key value rest

/-- Members sorted by key, the last of those with one key. -/
def sortedMembers (members : List (String × Json.Value)) : List (String × Json.Value) :=
  members.foldl (fun sorted member => insertMember member.1 member.2 sorted) []

namespace StepModule

/-- The key of a manifest under which the script is named. -/
def scriptKey : String := "module"

def isText : Json.Value → Bool
  | .string _ => true
  | _ => false

/-- The script that a manifest with these members describes. -/
def manifestScript (path : Path) (members : List (String × Json.Value)) : Path :=
  match members.lookup scriptKey with
  | some (.string script) => (path.parent?.getD ⟨[]⟩).join ⟨script⟩
  | _ => path.withExtension "js"

/-- The module with what one member of a manifest declares. -/
def addMember (module : StepModule) (member : String × Json.Value) :
    Except ManifestFault StepModule :=
  if member.1 = scriptKey ∧ isText member.2 then .ok module
  else
    match HookKind.ofKey? member.1, member.2 with
    | none, _ => .ok (module.addStep member.1)
    | some kind, .object hooks => .ok (module.addHooks kind ((sortedMembers hooks).map Prod.fst))
    | some _, _ => .error (.hooksNotObject member.1)

def ofManifest (path : Path) (source : String) : Except ManifestFault StepModule := do
  match ← (Json.Value.parse source).mapError .notJson with
  | .object members =>
      let members := sortedMembers members
      members.foldlM addMember { empty path with script := manifestScript path members }
  | _ => .error .notAnObject

end StepModule

end FeatureCompiler
