import FeatureCompiler.Plan.TestPlan
import FeatureCompiler.Script.Token
import FeatureCompiler.TestModule.Literal

/-!
Test modules in JavaScript. A module imports the step scripts, merges what they export, names the
fixture, and has one test for each test of the plan.
-/

namespace FeatureCompiler

namespace TestModule

/-- Whether a key can stand after a dot. -/
def isIdentifier (key : String) : Bool :=
  match key.toList with
  | [] => false
  | c :: rest => (Text.isAlphabetic c || c = '_' || c = '$') && rest.all Script.isWordChar

/-- The expression for what a call names. -/
def calleeExpression : Callee → String
  | .hook kind key =>
      if isIdentifier key then kind.key ++ "." ++ key
      else kind.key ++ "[" ++ templateLiteral key ++ "]"
  | .step text => "steps[" ++ templateLiteral text ++ "]"

def renderCall (call : Call) : String :=
  "  await " ++ calleeExpression call.callee ++ "(" ++ call.argument.toJson ++ ")(t);\n"

def renderTest (test : PlannedTest) : String :=
  "test" ++
    (match test.page with
      | some page => ".page " ++ templateLiteral page
      | none => "") ++
    "(" ++ templateLiteral test.name ++ ", async t => \x7b\n" ++
    String.join (test.calls.map renderCall) ++
    "\x7d);\n"

def renderFixture (plan : TestPlan) : String :=
  "fixture " ++ templateLiteral plan.name ++
    (match plan.page with
      | some page => "\n  .page " ++ templateLiteral page
      | none => "") ++
    ";\n"

/-- The name under which a module has the exports of its step script with this number. -/
def scriptName (index : Nat) : String :=
  "stepFile" ++ toString index

def renderImport (index : Nat) (specifier : String) : String :=
  "import " ++ scriptName index ++ " from " ++ stringLiteral specifier ++ ";\n"

def renderImports (specifiers : List String) : String :=
  String.join (specifiers.mapIdx renderImport) ++ "\n" ++
    "const stepFiles = [" ++
      ", ".intercalate ((List.range specifiers.length).map scriptName) ++ "];\n" ++
    "const steps = Object.assign(\x7b\x7d, ...stepFiles);\n" ++
    "const before = Object.assign(\x7b\x7d, ...stepFiles.map(s => s.before || \x7b\x7d));\n" ++
    "const after = Object.assign(\x7b\x7d, ...stepFiles.map(s => s.after || \x7b\x7d));\n"

end TestModule

open TestModule

/-- The module for a plan, made from a named source with the given import specifiers. -/
def TestPlan.render (plan : TestPlan) (source : String) (specifiers : List String) : String :=
  "// Generated from " ++ source ++ ". Do not edit.\n" ++
    renderImports specifiers ++ "\n" ++
    renderFixture plan ++
    String.join (plan.tests.map fun test => "\n" ++ renderTest test)

end FeatureCompiler
