import FeatureCompiler.Disk.Fault
import FeatureCompiler.Disk.Node

/-!
A disk: a tree of files, and the directory in it from which relative paths start. A path is followed
piece by piece through directories that have to exist; two dots lead to the directory above. Names
and whole paths are limited in their bytes, and no path holds the zero byte.
-/

namespace FeatureCompiler

@[ext] structure Disk where
  root : Node
  workingDirectory : Location
  wellFormed : root.WellFormed := by decide
deriving Repr

namespace Disk

/-- The most bytes that a name may have. -/
def nameLimit : Nat := 255

/-- The most bytes that a path may have. -/
def pathLimit : Nat := 4095

def isTooLong (limit : Nat) (bytes : Bytes) : Bool :=
  limit < bytes.length

def holdsZero (path : Path) : Bool :=
  path.bytes.contains 0

/-- Whether a path can be asked for at all, before any part of it is looked at. -/
def accept (path : Path) : Except DiskFault Unit :=
  if holdsZero path then .error .zeroCharacter
  else if isTooLong pathLimit path.bytes then .error .nameTooLong
  else .ok ()

/-- One step along a path, from a place that has to be a directory. -/
def enter (disk : Disk) (place : Location) (piece : Bytes) : Except DiskFault Location :=
  match disk.root.get? place with
  | none => .error .notFound
  | some (.file _) => .error .notADirectory
  | some (.directory entries) =>
      if !Path.isSolid piece then .ok place
      else if piece = [Path.dot, Path.dot] then .ok place.dropLast
      else if isTooLong nameLimit piece then .error .nameTooLong
      else
        match Name.ofPiece? piece with
        | some name =>
            if (entries.lookup name).isSome then .ok (place ++ [name]) else .error .notFound
        -- no piece of a path has slashes
        | none => .error .notFound

/-- The pieces of a path, which are followed from where it starts. -/
def follow (disk : Disk) (path : Path) (pieces : List Bytes) : Except DiskFault Location :=
  pieces.foldlM disk.enter (if path.isAbsolute then [] else disk.workingDirectory)

/-- The place that a path names. -/
def locate (disk : Disk) (path : Path) : Except DiskFault Location := do
  accept path
  if path.isEmpty then .error .notFound
  else disk.follow path (Text.pieces Path.slash path.bytes)

def node? (disk : Disk) (path : Path) : Option Node :=
  match disk.locate path with
  | .ok place => disk.root.get? place
  | .error _ => none

def contains (disk : Disk) (path : Path) : Bool :=
  (disk.node? path).isSome

def isDirectory (disk : Disk) (path : Path) : Bool :=
  (disk.node? path).any Node.isDirectory

def readText (disk : Disk) (path : Path) : Except DiskFault String := do
  match disk.root.get? (← disk.locate path) with
  | some (.file (.text text)) => .ok text
  | some (.file (.bytes _)) => .error .notText
  | some (.directory _) => .error .isADirectory
  | none => .error .notFound

/-- The directory that a path leads to, and the last piece of the path in it. -/
def locateParent (disk : Disk) (path : Path) : Except DiskFault (Location × Bytes) := do
  let pieces := Text.pieces Path.slash path.bytes
  let piece := pieces.getLastD []
  accept path
  let place ← disk.follow path pieces.dropLast
  match disk.root.get? place with
  | some (.directory _) =>
      if isTooLong nameLimit piece then .error .nameTooLong else .ok (place, piece)
  | some (.file _) => .error .notADirectory
  | none => .error .notFound

def put (disk : Disk) (place : Location) (entry : Entry) : Disk where
  root := disk.root.put place entry.leaf
  workingDirectory := disk.workingDirectory
  wellFormed := disk.wellFormed.put place (Node.wellFormed_leaf entry)

/-- A disk with nothing on it but its working directory. -/
def blank (workingDirectory : Location) : Disk :=
  put ⟨.directory [], workingDirectory, by decide⟩ workingDirectory .directory

def makeDirectory (disk : Disk) (path : Path) : Except DiskFault Disk := do
  let (place, piece) ← disk.locateParent path
  match Name.ofPiece? piece with
  | some name =>
      let target := place ++ [name]
      if (disk.root.get? target).isSome then .error .alreadyExists
      else .ok (disk.put target .directory)
  -- the path ends in dots or a slash, and leads to a directory that is there
  | none => .error .alreadyExists

/-- A path and the paths above it, without those that have the same last name. -/
def ancestorsOf (lead : Path.Lead) : List Bytes → List Path
  | [] =>
      match lead with
      | .root => [⟨[Path.slash]⟩]
      | .here => [⟨[Path.dot]⟩, ⟨[]⟩]
      | .none => [⟨[]⟩]
  | piece :: above =>
      if Path.isSolid piece then
        Path.ofSegments lead (piece :: above).reverse :: ancestorsOf lead above
      else ancestorsOf lead above

def ancestors (path : Path) : List Path :=
  ancestorsOf path.lead path.segments.reverse

/-- Makes a directory, or leaves one that is there. -/
def ensureDirectory (disk : Disk) (path : Path) : Except DiskFault Unit × Disk :=
  match disk.makeDirectory path with
  | .ok made => (.ok (), made)
  | .error fault => (if disk.isDirectory path then .ok () else .error fault, disk)

/-- Makes the first of some paths, each of which has the next above it, where it is not there yet.
What is above is made only if it is missing, and stays if the first then cannot be made. -/
def ensureAll (disk : Disk) : List Path → Except DiskFault Unit × Disk
  | [] => (.error .notFound, disk)
  | path :: above =>
      if path.isEmpty then (.ok (), disk)
      else
        match disk.makeDirectory path with
        | .error .notFound =>
            match disk.ensureAll above with
            | (.ok (), made) => made.ensureDirectory path
            | (.error fault, made) => (.error fault, made)
        | _ => disk.ensureDirectory path

/-- Makes a directory and those above it. -/
def makeDirectories (disk : Disk) (path : Path) : Except DiskFault Unit × Disk :=
  disk.ensureAll (ancestors path)

/-- Puts a file in the place that a path names, which must not be a directory. -/
def replaceFile (disk : Disk) (path : Path) (contents : Contents) : Except DiskFault Disk := do
  if holdsZero path then .error .invalidArgument
  else if path.isEmpty then .error .notFound
  else
    let (place, piece) ← disk.locateParent path
    match Name.ofPiece? piece with
    | some name =>
        let target := place ++ [name]
        if (disk.root.get? target).any Node.isDirectory then .error .isADirectory
        else .ok (disk.put target (.file contents))
    | none => .error .busy

/-- Writes a file and makes the directories above it. When the file cannot be written, the
directories stay and the file is as it was. -/
def writeFile (disk : Disk) (path : Path) (contents : Contents) : Except DiskFault Unit × Disk :=
  match disk.makeDirectories path.directory with
  | (.error fault, made) => (.error fault, made)
  | (.ok (), made) =>
      match made.replaceFile path contents with
      | .ok written => (.ok (), written)
      | .error fault => (.error fault, made)

/-- Removes what a path names, with everything below it. -/
def remove (disk : Disk) (path : Path) : Except DiskFault Disk := do
  let place ← disk.locate path
  return ⟨disk.root.erase place, disk.workingDirectory, disk.wellFormed.erase place⟩

end Disk

end FeatureCompiler
