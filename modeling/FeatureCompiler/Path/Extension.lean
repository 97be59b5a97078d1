import FeatureCompiler.Path.Basic

/-!
Extensions of file names. The extension is what follows the last dot of the name, and a name whose
only dot comes first has none.
-/

namespace FeatureCompiler.Path

/-- A name cut at its last dot, if it has one. -/
def cutAtLastDot? (name : Bytes) : Option (Bytes × Bytes) :=
  let reversed := name.reverse
  match reversed.dropWhile (· ≠ dot) with
  | [] => none
  | _ :: before => some (before.reverse, (reversed.takeWhile (· ≠ dot)).reverse)

/-- The stem of a file name and its extension. -/
def splitName (name : Bytes) : Bytes × Option Bytes :=
  match cutAtLastDot? name with
  | some (stem, extension) => if stem = [] then (name, none) else (stem, some extension)
  | none => (name, none)

def extension? (path : Path) : Option Bytes :=
  path.fileName?.bind fun name => (splitName name).2

/-- The path up to the stem of its file name, with an extension after that. A path without file
name stays as it is. -/
def setExtension (extension : Bytes) (path : Path) : Path :=
  match path.fileName? with
  | none => path
  | some name =>
      let stem := ofSegments path.lead
        ((trimRight path.segments).dropLast ++ [(splitName name).1])
      ⟨stem.bytes ++ dot :: extension⟩

/-- The path with another extension. The old one is first cut off the end of the spelling, where
slashes after the file name are cut in its stead, and the new one is then set on what is left. -/
def withExtension (extension : Bytes) (path : Path) : Path :=
  let cut := match path.extension? with
    | none => path
    | some old => ⟨path.bytes.take (path.bytes.length - old.length)⟩
  setExtension extension cut

end FeatureCompiler.Path
