import FeatureCompiler.Path.Basic
import FeatureCompiler.Text.Order

/-!
Trees of files and directories, without links, special files and permissions: what stands in a tree
can be read. In a well-formed tree the entries of a directory stand in the order of their names, and
every entry has a name of its own. All operations here keep it so, and whether a given tree is one
can be computed.
-/

namespace FeatureCompiler

/-- What a file holds: a text, or bytes that are none. -/
inductive Contents where
  | text (text : String)
  | bytes (bytes : Bytes)
deriving Repr, DecidableEq

/-- Bytes as a file holds them: as a text where they are one in UTF-8. -/
def Contents.ofBytes (bytes : Bytes) : Contents :=
  match String.fromUTF8? ⟨bytes.toArray⟩ with
  | some decoded => .text decoded
  | none => .bytes bytes

inductive Node where
  | file (contents : Contents)
  | directory (entries : List (Name × Node))
deriving Repr

/-- What stands at a place, without what is below it. -/
inductive Entry where
  | directory
  | file (contents : Contents)
deriving Repr, DecidableEq

/-- A node with nothing below it. -/
def Entry.leaf : Entry → Node
  | .directory => .directory []
  | .file contents => .file contents

namespace Node

def isDirectory : Node → Bool
  | .directory _ => true
  | .file _ => false

def get? : Node → Location → Option Node
  | node, [] => some node
  | .file _, _ :: _ => none
  | .directory entries, name :: rest =>
      match entries.lookup name with
      | some node => node.get? rest
      | none => none

/-- Entries with one of this name put in the place of an earlier one or in its order. -/
def putEntry (name : Name) (node : Node) : List (Name × Node) → List (Name × Node)
  | [] => [(name, node)]
  | entry :: rest =>
      match Text.compareBytes name.bytes entry.1.bytes with
      | .lt => (name, node) :: entry :: rest
      | .eq => (name, node) :: rest
      | .gt => entry :: putEntry name node rest

/-- The tree with a new node put at a place. Directories that are missing on the way are made;
where a file is on the way, nothing is put. -/
def put : Node → Location → Node → Node
  | _, [], new => new
  | .file contents, _ :: _, _ => .file contents
  | .directory entries, name :: rest, new =>
      let child := (entries.lookup name).getD (.directory [])
      .directory (putEntry name (child.put rest new) entries)

/-- The tree without what is at a place. The top itself stays. -/
def erase : Node → Location → Node
  | node, [] => node
  | .file contents, _ :: _ => .file contents
  | .directory entries, [name] => .directory (entries.filter fun entry => entry.1 ≠ name)
  | .directory entries, name :: rest =>
      match entries.lookup name with
      | some child => .directory (putEntry name (child.erase rest) entries)
      | none => .directory entries

mutual

/-- The places of all files in a tree, a directory's in the order of its entries. -/
def files : Node → List Location
  | .file _ => [[]]
  | .directory entries => filesOf entries

def filesOf : List (Name × Node) → List Location
  | [] => []
  | (name, node) :: rest => node.files.map (name :: ·) ++ filesOf rest

end

mutual

/-- The places of all nodes in a tree, each with its contents if it is a file. -/
def places : Node → List (Location × Option Contents)
  | .file contents => [([], some contents)]
  | .directory entries => ([], none) :: placesOf entries

def placesOf : List (Name × Node) → List (Location × Option Contents)
  | [] => []
  | (name, node) :: rest =>
      node.places.map (fun place => (name :: place.1, place.2)) ++ placesOf rest

end

/-- The places of all directories in a tree, each before those below it. -/
def directories (node : Node) : List Location :=
  (node.places.filter fun place => place.2.isNone).map Prod.fst

/-- The contents of a place: none for a directory. -/
def contents? : Node → Option Contents
  | .file contents => some contents
  | .directory _ => none

/-- The places of a tree that are new or different in comparison with an earlier one. -/
def changesSince (earlier later : Node) : List (Location × Option Contents) :=
  later.places.filter fun place =>
    match earlier.get? place.1 with
    | some node => node.contents? ≠ place.2
    | none => true

/-- The entries stand in the order of their names. -/
def Ordered (entries : List (Name × Node)) : Prop :=
  entries.Pairwise fun first second =>
    Text.compareBytes first.1.bytes second.1.bytes = .lt

/-- All directories of a tree have their entries in order. -/
inductive WellFormed : Node → Prop where
  | file (contents : Contents) : WellFormed (.file contents)
  | directory {entries : List (Name × Node)} (ordered : Ordered entries)
      (nodes : ∀ entry ∈ entries, WellFormed entry.2) : WellFormed (.directory entries)

theorem wellFormed_directory_iff {entries : List (Name × Node)} :
    (Node.directory entries).WellFormed ↔
      Ordered entries ∧ ∀ entry ∈ entries, entry.2.WellFormed := by
  constructor
  · intro h
    cases h with
    | directory ordered nodes => exact ⟨ordered, nodes⟩
  · rintro ⟨ordered, nodes⟩
    exact .directory ordered nodes

mutual

/-- Whether a tree is well formed, found out by a look at every entry. -/
def isWellFormed : Node → Bool
  | .file _ => true
  | .directory entries => areWellFormed entries

def areWellFormed : List (Name × Node) → Bool
  | [] => true
  | (name, node) :: rest =>
      rest.all (fun other => Text.compareBytes name.bytes other.1.bytes == .lt) &&
        node.isWellFormed && areWellFormed rest

end

mutual

theorem isWellFormed_iff : (node : Node) → (node.isWellFormed = true ↔ node.WellFormed)
  | .file contents => iff_of_true rfl (.file contents)
  | .directory entries => areWellFormed_iff entries

theorem areWellFormed_iff : (entries : List (Name × Node)) →
    (areWellFormed entries = true ↔ (Node.directory entries).WellFormed)
  | [] => iff_of_true rfl (.directory .nil (List.forall_mem_nil _))
  | (name, node) :: rest => by
      simp only [areWellFormed, Bool.and_eq_true, List.all_eq_true, beq_iff_eq,
        isWellFormed_iff node, areWellFormed_iff rest, wellFormed_directory_iff, Ordered,
        List.forall_mem_cons, List.pairwise_cons]
      constructor
      · rintro ⟨⟨hfirst, hnode⟩, ordered, nodes⟩
        exact ⟨⟨hfirst, ordered⟩, hnode, nodes⟩
      · rintro ⟨⟨hfirst, ordered⟩, hnode, nodes⟩
        exact ⟨⟨hfirst, hnode⟩, ordered, nodes⟩

end

instance (node : Node) : Decidable node.WellFormed :=
  decidable_of_iff _ (isWellFormed_iff node)

theorem wellFormed_leaf (entry : Entry) : entry.leaf.WellFormed := by
  cases entry with
  | directory => exact .directory .nil (List.forall_mem_nil _)
  | file contents => exact .file contents

theorem mem_of_lookup {entries : List (Name × Node)} {name : Name} {node : Node}
    (h : entries.lookup name = some node) : (name, node) ∈ entries := by
  obtain ⟨before, after, rfl, -⟩ := List.lookup_eq_some_iff.mp h
  exact List.mem_append_right _ List.mem_cons_self

theorem mem_of_mem_putEntry {name : Name} {node : Node} {entries : List (Name × Node)}
    {entry : Name × Node} (h : entry ∈ putEntry name node entries) :
    entry = (name, node) ∨ entry ∈ entries := by
  induction entries with
  | nil => exact Or.inl (List.mem_singleton.mp h)
  | cons first rest ih =>
      rw [putEntry] at h
      split at h
      · exact List.mem_cons.mp h
      · rcases List.mem_cons.mp h with h | h
        · exact Or.inl h
        · exact Or.inr (List.mem_cons_of_mem _ h)
      · rcases List.mem_cons.mp h with h | h
        · exact Or.inr (h ▸ List.mem_cons_self)
        · exact (ih h).imp_right (List.mem_cons_of_mem _)

theorem Ordered.putEntry {entries : List (Name × Node)} (hentries : Ordered entries) (name : Name)
    (node : Node) : Ordered (putEntry name node entries) := by
  induction entries with
  | nil => exact List.pairwise_singleton _ _
  | cons first rest ih =>
      obtain ⟨hfirst, hrest⟩ := List.pairwise_cons.mp hentries
      rw [Node.putEntry]
      split
      · next hlt =>
          refine List.pairwise_cons.mpr ⟨?_, hentries⟩
          intro entry hentry
          rcases List.mem_cons.mp hentry with rfl | hentry
          · exact hlt
          · exact Text.compareBytes_lt_trans hlt (hfirst entry hentry)
      · next heq =>
          rw [Text.compareBytes_eq_iff] at heq
          refine List.pairwise_cons.mpr ⟨?_, hrest⟩
          intro entry hentry
          rw [heq]
          exact hfirst entry hentry
      · next hgt =>
          refine List.pairwise_cons.mpr ⟨?_, ih hrest⟩
          intro entry hentry
          rcases mem_of_mem_putEntry hentry with rfl | hentry
          · exact Text.compareBytes_eq_gt_iff.mp hgt
          · exact hfirst entry hentry

namespace WellFormed

theorem putEntry {entries : List (Name × Node)} (hentries : (Node.directory entries).WellFormed)
    (name : Name) {node : Node} (hnode : node.WellFormed) :
    (Node.directory (putEntry name node entries)).WellFormed := by
  cases hentries with
  | directory ordered nodes =>
      refine .directory (ordered.putEntry name node) ?_
      intro entry hentry
      rcases mem_of_mem_putEntry hentry with rfl | hentry
      · exact hnode
      · exact nodes entry hentry

theorem lookup {entries : List (Name × Node)} (hentries : (Node.directory entries).WellFormed)
    {name : Name} {node : Node} (hlookup : entries.lookup name = some node) : node.WellFormed := by
  cases hentries with
  | directory ordered nodes => exact nodes (name, node) (mem_of_lookup hlookup)

theorem put {node : Node} (hnode : node.WellFormed) (place : Location) {new : Node}
    (hnew : new.WellFormed) : (node.put place new).WellFormed := by
  induction place generalizing node with
  | nil =>
      rw [Node.put]
      exact hnew
  | cons name rest ih =>
      cases node with
      | file contents => exact hnode
      | directory entries =>
          have hchild : ((entries.lookup name).getD (.directory [])).WellFormed := by
            cases hlookup : entries.lookup name with
            | none => exact wellFormed_leaf .directory
            | some child => exact hnode.lookup hlookup
          exact hnode.putEntry name (ih hchild)

theorem erase {node : Node} (hnode : node.WellFormed) (place : Location) :
    (node.erase place).WellFormed := by
  fun_induction Node.erase node place with
  | case1 node => exact hnode
  | case2 contents => exact hnode
  | case3 entries name =>
      cases hnode with
      | directory ordered nodes =>
          refine .directory (ordered.filter _) ?_
          intro entry hentry
          exact nodes entry (List.mem_filter.mp hentry).1
  | case4 entries name rest hrest child hlookup ih =>
      exact hnode.putEntry name (ih (hnode.lookup hlookup))
  | case5 => exact hnode

end WellFormed

end Node

end FeatureCompiler
