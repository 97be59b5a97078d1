import FeatureCompiler.Path.Basic

/-!
Step modules: the keys that one step file declares. A step is found by its text, a hook by its kind
and key.
-/

namespace FeatureCompiler

inductive HookKind where
  | before
  | after
deriving Repr, DecidableEq

/-- The annotation key that asks for hooks of a kind, which is also the name of the object that
holds them. -/
def HookKind.key : HookKind → String
  | .before => "before"
  | .after => "after"

def HookKind.ofKey? (key : String) : Option HookKind :=
  if key = "before" then some .before
  else if key = "after" then some .after
  else none

/-- What a call in a generated test names. -/
inductive Callee where
  | hook (kind : HookKind) (key : String)
  | step (text : String)
deriving Repr, DecidableEq

structure StepModule where
  /-- The file that the keys were read from. -/
  path : Path
  /-- The script that generated modules import for them. -/
  script : Path
  before : List String
  after : List String
  steps : List String
deriving Repr, DecidableEq

namespace StepModule

/-- A module that declares nothing and is its own script. -/
def empty (path : Path) : StepModule :=
  ⟨path, path, [], [], []⟩

def hooks (module : StepModule) : HookKind → List String
  | .before => module.before
  | .after => module.after

/-- The module has what a call names. -/
def Declares (module : StepModule) : Callee → Prop
  | .hook kind key => key ∈ module.hooks kind
  | .step text => text ∈ module.steps

instance (module : StepModule) : DecidablePred module.Declares
  | .hook kind key => inferInstanceAs (Decidable (key ∈ module.hooks kind))
  | .step text => inferInstanceAs (Decidable (text ∈ module.steps))

def addStep (module : StepModule) (text : String) : StepModule :=
  { module with steps := module.steps ++ [text] }

def addHooks (module : StepModule) : HookKind → List String → StepModule
  | .before, keys => { module with before := module.before ++ keys }
  | .after, keys => { module with after := module.after ++ keys }

end StepModule

end FeatureCompiler
