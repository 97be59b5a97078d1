import FeatureCompiler.Build.CompileError
import FeatureCompiler.Disk.Basic

/-!
The feature files of a build: the files at or below a path whose extension is `feature`, directory
by directory in the order of names. A directory whose path is too long to be asked for ends the
walk.
-/

namespace FeatureCompiler

/-- The path of a place below another path. -/
def Path.below (path : Path) (place : Location) : Path :=
  place.foldl (fun path name => path.join ⟨name.bytes⟩) path

def isFeatureFile (path : Path) : Bool :=
  path.extension? = some (Text.bytes "feature")

namespace Disk

/-- The first directory at or below a path that cannot be read by its path. -/
def unreadableDirectory? (node : Node) (path : Path) : Option Path :=
  (node.directories.map path.below).find? fun directory => isTooLong pathLimit directory.bytes

def discover (disk : Disk) (source : Path) : Except CompileError (List Path) :=
  match disk.node? source with
  | none => .error (.fileNotFound source)
  | some node =>
      match unreadableDirectory? node source with
      | some directory => .error (.walk directory .nameTooLong)
      | none => .ok ((node.files.map source.below).filter isFeatureFile)

end Disk

end FeatureCompiler
