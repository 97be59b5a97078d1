import FeatureCompiler.Proofs.Build.Layout
import FeatureCompiler.Proofs.Disk.Following
import FeatureCompiler.Proofs.Disk.Listing
import FeatureCompiler.Proofs.Path.Order

/-!
What a walk finds. It goes through the entries of a directory in the order of their names, files and
directories mixed, and through a directory before the entry after it. The files it comes upon are
then in the order of their paths, although no two paths are ever compared. A directory whose path is
too long to be asked for is all that can end a walk early.
-/

namespace FeatureCompiler

/-- Places that are in the order of their names have paths in the order of paths. -/
theorem Path.below_before (base : Path) {first second : Location}
    (h : List.Lex Node.nameBefore first second) :
    (base.below first).Before (base.below second) := by
  rw [Before, components_below, components_below]
  apply List.Lex.append_left
  induction h with
  | nil => exact .nil
  | cons _ ih => exact .cons ih
  | rel hname => exact .rel (.name (Text.compareBytes_eq_lt_iff.mp hname))

namespace Disk

/-- Whether every directory of a tree can be asked for by its path, if the tree is found at this
one. -/
def Walkable (node : Node) (source : Path) : Prop :=
  ∀ place, node.entryAt? place = some .directory →
    isTooLong pathLimit (source.below place).bytes = false

theorem unreadableDirectory?_eq_none_iff {node : Node} (hnode : node.WellFormed) {source : Path} :
    unreadableDirectory? node source = none ↔ Walkable node source := by
  rw [unreadableDirectory?, List.find?_eq_none, List.forall_mem_map]
  apply forall_congr'
  intro place
  rw [hnode.mem_directories_iff, Bool.not_eq_true]

theorem exists_place_of_unreadableDirectory? {node : Node} (hnode : node.WellFormed)
    {source directory : Path} (h : unreadableDirectory? node source = some directory) :
    ∃ place, node.entryAt? place = some .directory ∧ directory = source.below place ∧
      isTooLong pathLimit directory.bytes = true := by
  rw [unreadableDirectory?] at h
  obtain ⟨place, hplace, rfl⟩ := List.mem_map.mp (List.mem_of_find?_eq_some h)
  have hlong := List.find?_some h
  exact ⟨place, hnode.mem_directories_iff.mp hplace, rfl, hlong⟩

/-- The paths of the files of a tree, in the order in which they are listed. -/
theorem pairwise_before_files {node : Node} (hnode : node.WellFormed) (source : Path) :
    (node.files.map source.below).Pairwise Path.Before := by
  rw [List.pairwise_map]
  exact hnode.files_ordered.imp source.below_before

/-- A walk from a path that exists finds exactly the files at or below it with the extension of
feature files, each of them once and in the order of their paths. It ends without a result exactly
if there is a directory whose path is too long, and names one. -/
theorem discover_lists_featureFiles {disk : Disk} {source : Path}
    {node : Node} (hnode : disk.node? source = some node) :
    (Walkable node source → ∃ sources, disk.discover source = .ok sources ∧
      (∀ file, file ∈ sources ↔ ∃ place contents,
        node.entryAt? place = some (.file contents) ∧ file = source.below place ∧
          file.extension? = some (Text.bytes "feature")) ∧
      sources.Nodup ∧ sources.Pairwise Path.Before) ∧
    (¬ Walkable node source → ∃ place, node.entryAt? place = some .directory ∧
      isTooLong pathLimit (source.below place).bytes = true ∧
      disk.discover source = .error (.walk (source.below place) .nameTooLong)) := by
  obtain ⟨-, start, hget⟩ := exists_get?_of_node? hnode
  have htree : node.WellFormed := disk.wellFormed.get? hget
  rw [← unreadableDirectory?_eq_none_iff htree, discover, hnode]
  constructor
  · intro hreadable
    simp only [hreadable]
    have hordered : ((node.files.map source.below).filter isFeatureFile).Pairwise Path.Before :=
      (pairwise_before_files htree source).sublist List.filter_sublist
    refine ⟨_, rfl, ?_, hordered.imp Path.Before.ne, hordered⟩
    intro file
    rw [List.mem_filter, List.mem_map, isFeatureFile, decide_eq_true_eq]
    constructor
    · rintro ⟨⟨place, hplace, rfl⟩, hfeature⟩
      obtain ⟨contents, hcontents⟩ := htree.mem_files_iff.mp hplace
      exact ⟨place, contents, hcontents, rfl, hfeature⟩
    · rintro ⟨place, contents, hcontents, rfl, hfeature⟩
      exact ⟨⟨place, htree.mem_files_iff.mpr ⟨contents, hcontents⟩, rfl⟩, hfeature⟩
  · intro hunreadable
    obtain ⟨directory, hdirectory⟩ := Option.ne_none_iff_exists'.mp hunreadable
    obtain ⟨place, hplace, rfl, hlong⟩ := exists_place_of_unreadableDirectory? htree hdirectory
    simp only [hdirectory]
    exact ⟨place, hplace, hlong, rfl⟩

/-- A disk whose names are in another order than the texts of their paths: a slash comes after a
hyphen and a dot, and the end of a name before both. -/
def mixedNamesDisk : Disk where
  root := .directory [(.ofText "src", .directory [(.ofText "README.md", .file (.text "")),
    (.ofText "a", .directory [(.ofText "b.feature", .file (.text "")),
      (.ofText "c.feature", .directory [])]),
    (.ofText "a-b.feature", .file (.bytes [0xff])), (.ofText "a.feature", .file (.text ""))])]
  workingDirectory := []

theorem discover_mixedNamesDisk :
    (mixedNamesDisk.node? ⟨"src"⟩).isSome = true ∧
      ∃ sources, mixedNamesDisk.discover ⟨"src"⟩ = .ok sources ∧
        sources = [⟨"src/a/b.feature"⟩, ⟨"src/a-b.feature"⟩, ⟨"src/a.feature"⟩] ∧
        sources.Pairwise Path.Before := by
  have hfound : mixedNamesDisk.discover ⟨"src"⟩ =
      .ok [⟨"src/a/b.feature"⟩, ⟨"src/a-b.feature"⟩, ⟨"src/a.feature"⟩] := by
    with_unfolding_all rfl
  have hthere : (mixedNamesDisk.node? ⟨"src"⟩).isSome = true := rfl
  obtain ⟨node, hnode⟩ := Option.isSome_iff_exists.mp hthere
  obtain ⟨hlists, hfails⟩ := discover_lists_featureFiles hnode
  have hwalkable : Walkable node ⟨"src"⟩ := by
    by_contra hdeep
    obtain ⟨place, -, -, herror⟩ := hfails hdeep
    cases hfound.symm.trans herror
  obtain ⟨sources, hsources, -, -, hordered⟩ := hlists hwalkable
  cases hfound.symm.trans hsources
  exact ⟨hthere, _, hfound, rfl, hordered⟩

/-- A path to the directory `s` that is spelled with so many dots in front. -/
def dotted (count : Nat) : Path :=
  ⟨(List.replicate count [Path.dot, Path.slash]).flatten ++ [0x73]⟩

def subdirectoryNode : Node :=
  .directory [(.ofText "a.feature", .file (.text "Feature: A\n")),
    (.ofText "subdirectories", .directory [])]

def subdirectoryDisk : Disk where
  root := .directory [(.ofText "s", subdirectoryNode)]
  workingDirectory := []

theorem length_dotted (count : Nat) : (dotted count).bytes.length = 2 * count + 1 := by
  simp [dotted, Nat.mul_comm]

theorem length_below_dotted (name : Name) (count : Nat) :
    ((dotted count).below [name]).bytes.length = 2 * count + 2 + name.bytes.length := by
  have hlast : (0x73 : UInt8) ≠ Path.slash := by decide
  have hfront : Path.front (dotted count).bytes = (dotted count).bytes ++ [Path.slash] := by
    simp [Path.front, dotted, hlast]
  rw [Path.below_eq_join _ (List.cons_ne_nil _ _), Path.bytes_join (Path.lead_ofPlace [name]),
    hfront, List.length_append, List.length_append, length_dotted]
  rfl

theorem pieces_dotted (count : Nat) :
    Text.pieces Path.slash (dotted count).bytes = List.replicate count [Path.dot] ++ [[0x73]] := by
  rw [dotted]
  induction count with
  | zero => rfl
  | succ count ih =>
      rw [List.replicate_succ, List.flatten_cons, List.append_assoc, List.cons_append,
        List.cons_append, List.nil_append, ← List.singleton_append, Text.pieces_append, ih]
      rfl

theorem foldlM_enter_dots {disk : Disk} {place : Location}
    (hplace : disk.root.entryAt? place = some .directory) (count : Nat) :
    (List.replicate count [Path.dot]).foldlM disk.enter place = .ok place := by
  induction count with
  | zero => rfl
  | succ count ih =>
      rw [List.replicate_succ, List.foldlM_cons, enter_eq, hplace]
      exact ih

theorem locate_dotted {count : Nat} (hcount : 2 * count + 1 ≤ pathLimit) :
    subdirectoryDisk.locate (dotted count) = .ok [.ofText "s"] := by
  have hzero : holdsZero (dotted count) = false := by
    have hdot : (0 : UInt8) ≠ Path.dot := by decide
    have hslash : (0 : UInt8) ≠ Path.slash := by decide
    simp [holdsZero, dotted, hdot, hslash]
  have hlong : isTooLong pathLimit (dotted count).bytes = false :=
    decide_eq_false (by rw [length_dotted]; omega)
  rw [locate_eq_ok_iff]
  refine ⟨?_, ?_, ?_⟩
  · rw [accept, hzero, hlong]
    rfl
  · simp [Path.isEmpty, dotted]
  · have hstart : (if (dotted count).isAbsolute then [] else subdirectoryDisk.workingDirectory) =
        ([] : Location) := ite_self _
    rw [follow, pieces_dotted, hstart, List.foldlM_append, foldlM_enter_dots rfl]
    rfl

theorem unreadableDirectory?_dotted {count : Nat} (hshort : 2 * count + 1 ≤ pathLimit)
    (hlong : pathLimit < 2 * count + 16) :
    unreadableDirectory? subdirectoryNode (dotted count) =
      some ((dotted count).below [.ofText "subdirectories"]) := by
  have hnames : subdirectoryNode.directories = [[], [.ofText "subdirectories"]] := rfl
  have htop : isTooLong pathLimit ((dotted count).below []).bytes = false :=
    decide_eq_false (by rw [Path.below, List.foldl_nil, length_dotted]; omega)
  have hbelow :
      isTooLong pathLimit ((dotted count).below [.ofText "subdirectories"]).bytes = true :=
    decide_eq_true (by rw [length_below_dotted]; exact hlong)
  rw [unreadableDirectory?, hnames]
  simp [htop, hbelow]

theorem extension?_below_dotted (count : Nat) :
    ((dotted count).below [.ofText "a.feature"]).extension? = some (Text.bytes "feature") := by
  exact ((dotted count).extension?_below_concat [] (.ofText "a.feature")).trans rfl

theorem node?_dotted {count : Nat} (hshort : 2 * count + 1 ≤ pathLimit) :
    subdirectoryDisk.node? (dotted count) = some subdirectoryNode := by
  rw [node?, locate_dotted hshort]
  rfl

theorem discover_dotted {count : Nat} (hshort : 2 * count + 1 ≤ pathLimit)
    (hlong : pathLimit < 2 * count + 16) :
    subdirectoryDisk.discover (dotted count) =
      .error (.walk ((dotted count).below [.ofText "subdirectories"]) .nameTooLong) := by
  rw [discover, node?_dotted hshort]
  simp only [unreadableDirectory?_dotted hshort hlong]

/-- The directory `s` exists by a path of many dots, and has a feature file by its path. But the
path of the directory below `s` has one byte too many, so that the walk has no result. -/
theorem discover_dotted_fails :
    subdirectoryDisk.node? (dotted 2040) = some subdirectoryNode ∧
      subdirectoryNode.entryAt? [.ofText "a.feature"] = some (.file (.text "Feature: A\n")) ∧
      ((dotted 2040).below [.ofText "a.feature"]).extension? = some (Text.bytes "feature") ∧
      subdirectoryDisk.discover (dotted 2040) =
        .error (.walk ((dotted 2040).below [.ofText "subdirectories"]) .nameTooLong) :=
  ⟨node?_dotted (by decide), rfl, extension?_below_dotted 2040,
    discover_dotted (by decide) (by decide)⟩

end Disk

end FeatureCompiler
