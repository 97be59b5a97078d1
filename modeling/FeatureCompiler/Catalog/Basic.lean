import FeatureCompiler.Catalog.KeySet
import FeatureCompiler.Catalog.StepModule

/-!
Catalogs: the step modules of a build in the order in which they were loaded, and beside them the
steps and hooks that any of them declares. The two sets grow with every module, so that a name is
looked up in them and not in one module after the other.
-/

namespace FeatureCompiler

/-- What can be asked of a catalog of any kind: what a step text calls, and what the key of a hook
calls. -/
structure Lookup where
  step? : String → Option Callee
  hook? : HookKind → String → Option Callee

structure Catalog where
  modules : List StepModule
  steps : KeySet String
  hooks : KeySet (HookKind × String)
  /-- The steps are those of the modules. -/
  mem_steps : ∀ text, text ∈ steps ↔ ∃ module ∈ modules, module.Declares (.step text)
  /-- The hooks are those of the modules, each under its kind. -/
  mem_hooks : ∀ kind key,
    (kind, key) ∈ hooks ↔ ∃ module ∈ modules, module.Declares (.hook kind key)
deriving Repr, DecidableEq

namespace Catalog

def empty : Catalog where
  modules := []
  steps := .empty
  hooks := .empty
  mem_steps text := by simp [KeySet.notMem_empty]
  mem_hooks kind key := by simp [KeySet.notMem_empty]

def add (catalog : Catalog) (module : StepModule) : Catalog where
  modules := catalog.modules ++ [module]
  steps := catalog.steps.insertAll module.steps
  hooks := (catalog.hooks.insertAll (module.before.map (HookKind.before, ·))).insertAll
    (module.after.map (HookKind.after, ·))
  mem_steps text := by
    simp [KeySet.mem_insertAll, catalog.mem_steps, StepModule.Declares, or_and_right, exists_or]
  mem_hooks kind key := by
    cases kind <;>
      simp [KeySet.mem_insertAll, catalog.mem_hooks, StepModule.Declares, StepModule.hooks,
        or_and_right, exists_or]

/-- The catalog after some modules were added one after the other. -/
def addAll (catalog : Catalog) (modules : List StepModule) : Catalog :=
  modules.foldl add catalog

def step? (catalog : Catalog) (text : String) : Option Callee :=
  if catalog.steps.contains text then some (.step text) else none

def hook? (catalog : Catalog) (kind : HookKind) (key : String) : Option Callee :=
  if catalog.hooks.contains (kind, key) then some (.hook kind key) else none

def lookup (catalog : Catalog) : Lookup :=
  ⟨catalog.step?, catalog.hook?⟩

/-- Scripts with one more at the end, unless one of them is the same path. -/
def addScript (scripts : List Path) (script : Path) : List Path :=
  if scripts.any script.same then scripts else scripts ++ [script]

/-- The scripts of all modules in load order, each once and spelled as it was first. -/
def scripts (catalog : Catalog) : List Path :=
  (catalog.modules.map StepModule.script).foldl addScript []

end Catalog

end FeatureCompiler
