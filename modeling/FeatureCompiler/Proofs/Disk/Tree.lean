import FeatureCompiler.Disk.Basic
import FeatureCompiler.Proofs.Path.Below

/-!
Well-formed trees, in which no directory has two entries of one name. What stands in such a tree is
one, and its files have places of their own.
-/

namespace FeatureCompiler.Node

theorem WellFormed.get? {node : Node} (hnode : node.WellFormed) {place : Location} {found : Node}
    (hfound : node.get? place = some found) : found.WellFormed := by
  induction place generalizing node with
  | nil =>
      rw [Node.get?] at hfound
      cases hfound
      exact hnode
  | cons name rest ih =>
      cases hnode with
      | file contents => cases hfound
      | directory ordered nodes =>
          rw [Node.get?] at hfound
          split at hfound
          · next child hchild => exact ih (nodes _ (mem_of_lookup hchild)) hfound
          · cases hfound

theorem filesOf_eq_flatMap (entries : List (Name × Node)) :
    filesOf entries = entries.flatMap fun entry => entry.2.files.map (entry.1 :: ·) := by
  induction entries with
  | nil => rfl
  | cons entry rest ih =>
      rw [filesOf, ih]
      rfl

theorem ne_nil_of_mem_files {entries : List (Name × Node)} {place : Location}
    (hplace : place ∈ (Node.directory entries).files) : place ≠ [] := by
  rw [files, filesOf_eq_flatMap] at hplace
  obtain ⟨entry, -, hrest⟩ := List.mem_flatMap.mp hplace
  obtain ⟨rest, -, rfl⟩ := List.mem_map.mp hrest
  exact List.cons_ne_nil _ _

theorem WellFormed.files_nodup {node : Node} (hnode : node.WellFormed) : node.files.Nodup := by
  induction hnode with
  | file contents => exact List.pairwise_singleton _ _
  | directory ordered nodes ih =>
      rw [files, filesOf_eq_flatMap, List.Nodup, List.pairwise_flatMap]
      constructor
      · intro entry hentry
        rw [List.pairwise_map]
        refine (ih entry hentry).imp ?_
        intro first second hne h
        exact hne (List.cons.inj h).2
      · refine ordered.imp ?_
        intro first second hlt place hplace other hother h
        obtain ⟨_, -, rfl⟩ := List.mem_map.mp hplace
        obtain ⟨_, -, rfl⟩ := List.mem_map.mp hother
        -- places below two entries start with different names
        rw [(List.cons.inj h).1, Text.compareBytes_eq_iff.mpr rfl] at hlt
        cases hlt

end FeatureCompiler.Node
