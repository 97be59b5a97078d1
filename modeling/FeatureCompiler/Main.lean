import FeatureCompiler.Command.Compile
import FeatureCompiler.Command.Outline

/-!
The command line. The first argument names the command and the others are its own. Standard input
lists the files that the command can see, one path a line; a path that ends in a slash is a
directory. They are read before the command runs, and what it changed is stored after it.
-/

namespace FeatureCompiler

/-- The disk with one of the listed files on it. -/
def readListed (disk : Disk) (name : String) : IO Disk := do
  if name.isEmpty then return disk
  else if name.endsWith "/" then return (disk.makeDirectories (.ofText name)).2
  else
    let bytes ← IO.FS.readBinFile name
    return (disk.writeFile (.ofText name) (.ofBytes bytes.toList)).2

def readDisk : IO Disk := do
  let place := Text.pieces Path.slash (Text.bytes (toString (← IO.currentDir)))
  let disk := Disk.blank (place.filterMap Name.ofPiece?)
  (← (← IO.getStdin).lines).foldlM readListed disk

def storeChange (change : Location × Option Contents) : IO Unit := do
  let name := "/" ++ "/".intercalate (change.1.map Name.shown)
  match change.2 with
  | none => IO.FS.createDirAll name
  | some (.text text) => IO.FS.writeFile name text
  | some (.bytes bytes) => IO.FS.writeBinFile name ⟨bytes.toArray⟩

def readEnvironment : IO (List (String × String)) :=
  [Command.sourceVariable, Command.outputVariable].filterMapM fun name => do
    return (← IO.getEnv name).map (name, ·)

def runCommand (command : Disk → Command.Result) : IO UInt32 := do
  let disk ← readDisk
  let result := command disk
  (disk.root.changesSince result.disk.root).forM storeChange
  IO.print result.output
  IO.eprint result.errors
  return result.exitCode.toUInt32

end FeatureCompiler

open FeatureCompiler

def main (arguments : List String) : IO UInt32 := do
  match arguments with
  | "compile" :: rest =>
      let environment ← readEnvironment
      runCommand (Command.compile rest environment)
  | "outline" :: rest => runCommand (Command.outline rest)
  | _ =>
      IO.eprintln "The first argument has to be compile or outline."
      return 2
