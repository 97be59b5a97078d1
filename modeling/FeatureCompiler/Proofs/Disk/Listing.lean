import FeatureCompiler.Proofs.Disk.Entries
import Mathlib.Data.List.Lex
import Mathlib.Data.List.Sort

/-!
Listings of a tree. They hold just the places at which the files and directories of a well-formed
tree stand. The files are listed in the order of their names from the top, so that a listing is
known by its members.
-/

namespace FeatureCompiler.Node

theorem placesOf_eq_flatMap (entries : List (Name × Node)) :
    placesOf entries = entries.flatMap fun entry =>
      entry.2.places.map fun place => (entry.1 :: place.1, place.2) := by
  induction entries with
  | nil => rfl
  | cons entry rest ih =>
      rw [placesOf, ih]
      rfl

theorem WellFormed.mem_places_iff {node : Node} (hnode : node.WellFormed) {place : Location}
    {contents : Option Contents} :
    (place, contents) ∈ node.places ↔ (node.get? place).map contents? = some contents := by
  induction hnode generalizing place with
  | file text =>
      rw [places, List.mem_singleton, Prod.mk.injEq]
      cases place with
      | nil =>
          rw [Node.get?]
          simp [contents?, eq_comm]
      | cons name rest =>
          rw [Node.get?]
          simp
  | @directory entries ordered nodes ih =>
      rw [places, placesOf_eq_flatMap]
      cases place with
      | nil =>
          rw [Node.get?]
          simp [contents?, eq_comm]
      | cons name rest =>
          have hlist := WellFormed.directory ordered nodes
          rw [get?_cons]
          constructor
          · intro h
            have hbelow := List.mem_of_ne_of_mem (by simp) h
            obtain ⟨entry, hentry, hmapped⟩ := List.mem_flatMap.mp hbelow
            obtain ⟨found, hfound, hsame⟩ := List.mem_map.mp hmapped
            cases hsame
            rw [hlist.lookup_of_mem hentry]
            exact (ih entry hentry).mp hfound
          · intro h
            cases hlookup : entries.lookup name with
            | none =>
                rw [hlookup] at h
                cases h
            | some child =>
                rw [hlookup] at h
                have hmem := mem_of_lookup hlookup
                refine List.mem_cons_of_mem _ (List.mem_flatMap.mpr ⟨(name, child), hmem, ?_⟩)
                exact List.mem_map.mpr ⟨(rest, contents), (ih _ hmem).mpr h, rfl⟩

/-- The files that are listed are the places with contents. -/
theorem WellFormed.files_eq {node : Node} (hnode : node.WellFormed) :
    node.files = (node.places.filter fun place => place.2.isSome).map Prod.fst := by
  induction hnode with
  | file contents => rfl
  | directory ordered nodes ih =>
      rw [files, filesOf_eq_flatMap, places, placesOf_eq_flatMap,
        List.filter_cons_of_neg (by simp), List.filter_flatMap, List.map_flatMap]
      apply List.flatMap_congr
      intro entry hentry
      rw [ih entry hentry, List.filter_map, List.map_map, List.map_map]
      rfl

theorem WellFormed.mem_files_iff {node : Node} (hnode : node.WellFormed) {place : Location} :
    place ∈ node.files ↔ ∃ contents, node.entryAt? place = some (.file contents) := by
  have hplaces : place ∈ node.files ↔ ∃ contents, (place, some contents) ∈ node.places := by
    simp [hnode.files_eq, Option.isSome_iff_exists]
  rw [hplaces]
  apply exists_congr
  intro contents
  rw [hnode.mem_places_iff, entryAt?]
  cases node.get? place with
  | none => simp
  | some child => cases child <;> simp [contents?, entry]

theorem WellFormed.mem_directories_iff {node : Node} (hnode : node.WellFormed)
    {place : Location} : place ∈ node.directories ↔ node.entryAt? place = some .directory := by
  have hplaces : place ∈ node.directories ↔ (place, none) ∈ node.places := by
    simp [directories]
  rw [hplaces, hnode.mem_places_iff, entryAt?]
  cases node.get? place with
  | none => simp
  | some child => cases child <;> simp [contents?, entry]

/-- The order of the entries of a directory. -/
def nameBefore (first second : Name) : Prop :=
  Text.compareBytes first.bytes second.bytes = .lt

instance : Std.Asymm nameBefore where
  asymm first second hbefore hafter := by
    rw [nameBefore, ← Text.compareBytes_swap, hbefore] at hafter
    cases hafter

theorem WellFormed.files_ordered {node : Node} (hnode : node.WellFormed) :
    node.files.Pairwise (List.Lex nameBefore) := by
  induction hnode with
  | file contents => exact List.pairwise_singleton _ _
  | directory ordered nodes ih =>
      rw [files, filesOf_eq_flatMap, List.pairwise_flatMap]
      constructor
      · intro entry hentry
        rw [List.pairwise_map]
        exact (ih entry hentry).imp .cons
      · refine ordered.imp ?_
        intro first second hbefore place hplace other hother
        obtain ⟨_, -, rfl⟩ := List.mem_map.mp hplace
        obtain ⟨_, -, rfl⟩ := List.mem_map.mp hother
        exact .rel hbefore

/-- Trees that have the same files among those that are asked for list them in the same order. -/
theorem WellFormed.filter_files_congr {node other : Node} (hnode : node.WellFormed)
    (hother : other.WellFormed) {wanted : Location → Bool}
    (h : ∀ place, wanted place = true →
      ((∃ contents, node.entryAt? place = some (.file contents)) ↔
        ∃ contents, other.entryAt? place = some (.file contents))) :
    node.files.filter wanted = other.files.filter wanted := by
  apply (hnode.files_ordered.sublist List.filter_sublist).eq_of_mem_iff
    (hother.files_ordered.sublist List.filter_sublist)
  intro place
  rw [List.mem_filter, List.mem_filter, hnode.mem_files_iff, hother.mem_files_iff]
  exact and_congr_left (h place)

end FeatureCompiler.Node
