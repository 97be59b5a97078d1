import FeatureCompiler.Path.Order

/-!
Shelves: texts kept in memory under paths, in the order of the paths. Paths with the same components
share a text; the first spelling is kept and the last text.
-/

namespace FeatureCompiler

structure Shelf where
  files : List (Path × String)
deriving Repr, DecidableEq

namespace Shelf

def empty : Shelf := ⟨[]⟩

/-- Files in order with one more text among them. -/
def putFile (path : Path) (text : String) : List (Path × String) → List (Path × String)
  | [] => [(path, text)]
  | file :: rest =>
      match path.compare file.1 with
      | .lt => (path, text) :: file :: rest
      | .eq => (file.1, text) :: rest
      | .gt => file :: putFile path text rest

def write (shelf : Shelf) (path : Path) (text : String) : Shelf :=
  ⟨putFile path text shelf.files⟩

def get? (shelf : Shelf) (path : Path) : Option String :=
  (shelf.files.find? fun file => file.1.same path).map Prod.snd

def size (shelf : Shelf) : Nat :=
  shelf.files.length

end Shelf

end FeatureCompiler
