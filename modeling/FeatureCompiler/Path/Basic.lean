import FeatureCompiler.Text.Pieces
import FeatureCompiler.Text.Utf8

/-!
Paths with slashes. A path is made of bytes, which need not be a text, and is kept as it was
spelled; what it names is given by its components, in which repeated slashes, final slashes and
inner dots do not count.
-/

namespace FeatureCompiler

@[ext] structure Path where
  bytes : Bytes
deriving Repr, DecidableEq, Inhabited

namespace Path

def ofText (text : String) : Path :=
  ⟨text⟩

/-- A path as it is shown. Bytes that are no text are replaced. -/
def shown (path : Path) : String :=
  String.ofList (Text.lossy path.bytes)

def slash : UInt8 := 0x2f

def dot : UInt8 := 0x2e

@[simp] theorem slash_ne_dot : slash ≠ dot := by
  decide

@[simp] theorem dot_ne_slash : dot ≠ slash := by
  decide

inductive Component where
  | root
  | here
  | up
  | name (bytes : Bytes)
deriving Repr, DecidableEq

/-- How a path starts: at the root, at an explicit dot, or with neither. -/
inductive Lead where
  | root
  | here
  | none
deriving Repr, DecidableEq

def Lead.bytes : Lead → Bytes
  | .root => [slash]
  | .here => [dot]
  | .none => []

def Lead.components : Lead → List Component
  | .root => [.root]
  | .here => [.here]
  | .none => []

/-- The start of a path and the bytes after it. -/
def splitLead : Bytes → Lead × Bytes
  | [] => (.none, [])
  | first :: rest =>
      if first = slash then (.root, rest)
      else if first = dot ∧ rest.head?.all (· = slash) then (.here, rest)
      else (.none, first :: rest)

/-- Whether a piece between slashes is a component. Empty pieces and dots are not. -/
def isSolid (piece : Bytes) : Bool :=
  piece ≠ [] && piece ≠ [dot]

def solidComponent (piece : Bytes) : Component :=
  if piece = [dot, dot] then .up else .name piece

def lead (path : Path) : Lead :=
  (splitLead path.bytes).1

/-- The pieces between the slashes after the start of a path. -/
def segments (path : Path) : List Bytes :=
  Text.pieces slash (splitLead path.bytes).2

def components (path : Path) : List Component :=
  path.lead.components ++ (path.segments.filter isSolid).map solidComponent

/-- Whether two paths have the same components, however they are spelled. -/
def same (p q : Path) : Bool :=
  p.components = q.components

def trimLeft (pieces : List Bytes) : List Bytes :=
  pieces.dropWhile fun piece => !isSolid piece

def trimRight (pieces : List Bytes) : List Bytes :=
  (pieces.reverse.dropWhile fun piece => !isSolid piece).reverse

/-- The path that starts like this and goes on with these pieces. -/
def ofSegments (start : Lead) (pieces : List Bytes) : Path :=
  ⟨start.bytes ++ Text.joined [slash] pieces⟩

def isAbsolute (path : Path) : Bool :=
  path.lead = .root

def isEmpty (path : Path) : Bool :=
  path.bytes.isEmpty

/-- The last component, if it is a name. -/
def fileName? (path : Path) : Option Bytes :=
  match (path.segments.filter isSolid).getLast? with
  | some piece => if piece = [dot, dot] then none else some piece
  | none => none

/-- The path without its last component. The root and the empty path have none. -/
def parent? (path : Path) : Option Path :=
  match trimRight path.segments with
  | [] => if path.lead = .here then some ⟨[]⟩ else none
  | pieces => some (ofSegments path.lead (trimRight pieces.dropLast))

/-- The directory in which a path names something. -/
def directory (path : Path) : Path :=
  match path.parent? with
  | some parent => if parent.isEmpty then ⟨[dot]⟩ else parent
  | none => ⟨[dot]⟩

/-- The second path seen from the first. An absolute second path stands for itself. -/
def join (base path : Path) : Path :=
  if path.isAbsolute then path
  else if base.isEmpty || base.bytes.getLast? = some slash then ⟨base.bytes ++ path.bytes⟩
  else ⟨base.bytes ++ slash :: path.bytes⟩

/-- The pieces after the first `n` solid ones. -/
def dropSolid : Nat → List Bytes → List Bytes
  | 0, pieces => pieces
  | _ + 1, [] => []
  | n + 1, piece :: pieces =>
      if isSolid piece then dropSolid n pieces else dropSolid (n + 1) pieces

/-- What is left of a path below a base. The rest keeps the spelling of its inner part. -/
def stripBase? (path base : Path) : Option Path :=
  if base.components.isPrefixOf path.components then
    match base.components.length with
    | 0 => some (ofSegments path.lead (trimRight path.segments))
    | n =>
        let rest := dropSolid (n - path.lead.components.length) path.segments
        some (ofSegments .none (trimRight (trimLeft rest)))
  else none

/-- Bytes by which an entry of a directory can be named: a component that is not two dots. -/
def IsName (bytes : Bytes) : Prop :=
  isSolid bytes = true ∧ bytes ≠ [dot, dot] ∧ slash ∉ bytes

instance (bytes : Bytes) : Decidable (IsName bytes) :=
  inferInstanceAs (Decidable (_ ∧ _ ∧ _))

end Path

/-- The name of an entry of a directory. -/
@[ext] structure Name where
  bytes : Bytes
  isName : Path.IsName bytes
deriving Repr, DecidableEq

namespace Name

/-- The name that a piece of a path is, if it is one. -/
def ofPiece? (piece : Bytes) : Option Name :=
  if h : Path.IsName piece then some ⟨piece, h⟩ else none

/-- A name as it is shown. -/
def shown (name : Name) : String :=
  String.ofList (Text.lossy name.bytes)

theorem ofPiece?_bytes (name : Name) : ofPiece? name.bytes = some name :=
  dif_pos name.isName

theorem ofPiece?_eq_some_iff {piece : Bytes} {name : Name} :
    ofPiece? piece = some name ↔ piece = name.bytes := by
  constructor
  · intro h
    rw [ofPiece?] at h
    split at h
    · cases h
      rfl
    · cases h
  · rintro rfl
    exact ofPiece?_bytes name

theorem ofPiece?_eq_none_iff {piece : Bytes} : ofPiece? piece = none ↔ ¬ Path.IsName piece := by
  rw [ofPiece?]
  split <;> simp [*]

theorem exists_map_bytes {pieces : List Bytes} (h : ∀ piece ∈ pieces, Path.IsName piece) :
    ∃ names : List Name, pieces = names.map Name.bytes := by
  induction pieces with
  | nil => exact ⟨[], rfl⟩
  | cons piece rest ih =>
      obtain ⟨hpiece, hrest⟩ := List.forall_mem_cons.mp h
      obtain ⟨names, rfl⟩ := ih hrest
      exact ⟨⟨piece, hpiece⟩ :: names, rfl⟩

theorem isSolid (name : Name) : Path.isSolid name.bytes = true :=
  name.isName.1

theorem solidComponent_bytes (name : Name) :
    Path.solidComponent name.bytes = .name name.bytes :=
  if_neg name.isName.2.1

/-- A name that is written down. Whether the text is one is computed. -/
def ofText (text : String)
    (h : decide (Path.IsName (Text.bytes text)) = true := by exact Eq.refl true) : Name :=
  ⟨text, of_decide_eq_true h⟩

end Name

/-- The names that lead from the top of a tree to a place in it. -/
abbrev Location := List Name

end FeatureCompiler
