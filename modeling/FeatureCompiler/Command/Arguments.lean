import FeatureCompiler.Build.Layout

/-!
The arguments of the compiler command. Options have long names, to which a value can be glued with
an equals sign, and flags may also be given by letters behind one dash. The step option takes every
argument up to the next one that starts with a dash. Directories that are not given come from the
environment. No value may be empty, and only the step option may be repeated.
-/

namespace FeatureCompiler.Command

/-- Options that take a value. -/
inductive ValueOption where
  | source
  | output
  | steps
deriving Repr, DecidableEq

/-- Options that are given or not. -/
inductive Flag where
  | strict
  | verbose
  | help
  | version
deriving Repr, DecidableEq

def ValueOption.ofName? : String → Option ValueOption
  | "src" => some .source
  | "dest" => some .output
  | "steps" => some .steps
  | _ => none

def Flag.ofName? : String → Option Flag
  | "strict" => some .strict
  | "verbose" => some .verbose
  | "help" => some .help
  | "version" => some .version
  | _ => none

def Flag.ofLetter? : Char → Option Flag
  | 'v' => some .verbose
  | 'h' => some .help
  | 'V' => some .version
  | _ => none

/-- Why no build is started: something was asked about the command, or it was called wrongly. -/
inductive Stop where
  | help
  | version
  | misuse
deriving Repr, DecidableEq

/-- What the next argument may be a value of. -/
inductive Awaiting where
  /-- Values may follow, and none has to. -/
  | any (option : ValueOption)
  | one (option : ValueOption)
  | nothing
deriving Repr, DecidableEq

/-- The variable of the environment that names the source directory. -/
def sourceVariable : String := "ANNOTEST_SRC_DIR"

/-- The variable of the environment that names the output directory. -/
def outputVariable : String := "ANNOTEST_DEST_DIR"

structure Arguments where
  source : Option String
  output : Option String
  steps : List String
  strict : Bool
  verbose : Bool
deriving Repr, DecidableEq

namespace Arguments

def none : Arguments := ⟨.none, .none, [], false, false⟩

def addValue (arguments : Arguments) (option : ValueOption) (value : String) :
    Except Stop Arguments :=
  if value.isEmpty then .error .misuse
  else
    match option with
    | .source =>
        if arguments.source.isSome then .error .misuse
        else .ok { arguments with source := some value }
    | .output =>
        if arguments.output.isSome then .error .misuse
        else .ok { arguments with output := some value }
    | .steps => .ok { arguments with steps := arguments.steps ++ [value] }

def addFlag (arguments : Arguments) : Flag → Except Stop Arguments
  | .strict => if arguments.strict then .error .misuse else .ok { arguments with strict := true }
  | .verbose => if arguments.verbose then .error .misuse else .ok { arguments with verbose := true }
  | .help => .error .help
  | .version => .error .version

def addLetters (arguments : Arguments) : List Char → Except Stop Arguments
  | [] => .ok arguments
  | letter :: rest =>
      match Flag.ofLetter? letter with
      | some flag => do (← arguments.addFlag flag).addLetters rest
      | .none => .error .misuse

/-- An argument after two dashes: a name, and perhaps a value behind an equals sign. -/
def addLong (arguments : Arguments) (text : List Char) : Except Stop (Arguments × Awaiting) :=
  let name := String.ofList (text.takeWhile (· ≠ '='))
  match text.dropWhile (· ≠ '='), ValueOption.ofName? name, Flag.ofName? name with
  | _ :: value, some option, _ => do
      return (← arguments.addValue option (String.ofList value), .nothing)
  | [], some option, _ => .ok (arguments, .one option)
  | [], .none, some flag => do return (← arguments.addFlag flag, .nothing)
  | _, _, _ => .error .misuse

/-- Reads arguments of which the first may belong to an option before it. An option with a value to
come refuses an argument that starts with a dash and is more than a dash. -/
def read (arguments : Arguments) (awaiting : Awaiting) : List String → Except Stop Arguments
  | [] =>
      match awaiting with
      | .one _ => .error .misuse
      | _ => .ok arguments
  | argument :: rest =>
      match argument.toList, awaiting with
      | '-' :: _ :: _, .one _ => .error .misuse
      | ['-', '-'], _ => if rest.isEmpty then .ok arguments else .error .misuse
      | '-' :: '-' :: text, _ => do
          let (arguments, awaiting) ← arguments.addLong text
          arguments.read awaiting rest
      | '-' :: letter :: letters, _ => do
          (← arguments.addLetters (letter :: letters)).read .nothing rest
      | _, .one .steps => do (← arguments.addValue .steps argument).read (.any .steps) rest
      | _, .one option => do (← arguments.addValue option argument).read .nothing rest
      | _, .any option => do (← arguments.addValue option argument).read (.any option) rest
      | _, .nothing => .error .misuse

/-- A directory that was given, or else the one of the environment. -/
def directory (given : Option String) (fallback : Option String) : Except Stop Path :=
  match given <|> fallback with
  | some text => if text.isEmpty then .error .misuse else .ok (.ofText text)
  | .none => .error .misuse

/-- The build that the arguments ask for. -/
def toOptions (arguments : Arguments) (environment : List (String × String)) :
    Except Stop BuildOptions := do
  let source ← directory arguments.source (environment.lookup sourceVariable)
  let output ← directory arguments.output (environment.lookup outputVariable)
  if arguments.steps.isEmpty then .error .misuse
  else return ⟨source, output, arguments.steps.map Path.ofText, arguments.strict⟩

end Arguments

end FeatureCompiler.Command
