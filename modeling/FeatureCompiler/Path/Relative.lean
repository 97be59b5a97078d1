import FeatureCompiler.Disk.Fault
import FeatureCompiler.Path.Basic

/-!
Paths seen from other places. A path becomes absolute by putting the working directory in front,
and one absolute place is reached from another by going up to what they share and down again. Dots
are resolved by their spelling alone, without a look at any disk.
-/

namespace FeatureCompiler.Path

def Component.bytes : Component → Bytes
  | .root => [slash]
  | .here => [dot]
  | .up => [dot, dot]
  | .name bytes => bytes

/-- Components as texts, with a slash between each two of them. -/
def slashed (components : List Component) : String :=
  String.ofList (Text.joined ['/'] (components.map fun component => Text.lossy component.bytes))

/-- The components of a path from the root on. The empty path has none. -/
def absolute (workingDirectory : Location) (path : Path) :
    Except DiskFault (List Component) :=
  if path.isEmpty then .error .emptyPath
  else if path.isAbsolute then .ok path.components
  else
    let start := Component.root :: workingDirectory.map fun name => .name name.bytes
    .ok (start ++ path.components.filter (· ≠ .here))

/-- One more component behind components without dots. Two dots take back a name before them. -/
def normalStep (done : List Component) : Component → List Component
  | .here => done
  | .up =>
      match done.getLast? with
      | some (.name _) => done.dropLast
      | _ => done ++ [.up]
  | component => done ++ [component]

def normalize (components : List Component) : List Component :=
  components.foldl normalStep []

/-- Two lists of components without what both start with. -/
def withoutCommon : List Component → List Component → List Component × List Component
  | c :: cs, d :: ds => if c = d then withoutCommon cs ds else (c :: cs, d :: ds)
  | cs, ds => (cs, ds)

/-- The components that lead from one absolute place to another. -/
def relative (start target : List Component) : List Component :=
  let (up, down) := withoutCommon (normalize start) (normalize target)
  List.replicate up.length .up ++ down

/-- The text by which a module imports what these components lead to. -/
def specifier (components : List Component) : String :=
  let text := slashed components
  if "../".toList.isPrefixOf text.toList then text else "./" ++ text

end FeatureCompiler.Path
