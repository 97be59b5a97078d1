import FeatureCompiler.Build.Discover
import FeatureCompiler.Proofs.Path.Join

/-!
Paths of places in a tree. The names of a place are joined one after the other, which comes to the
same as joining the place as a whole; below its base, such a path is the place again.
-/

namespace FeatureCompiler.Path

theorem IsName.ne_nil {bytes : Bytes} (h : IsName bytes) : bytes ≠ [] := by
  rintro rfl
  exact absurd h.1 (by decide)

theorem front_name (name : Name) : front name.bytes = name.bytes ++ [slash] := by
  rw [front, if_neg]
  intro h
  rcases h with hnil | hlast
  · exact name.isName.ne_nil hnil
  · exact name.isName.2.2 (List.mem_of_getLast? hlast)

/-- The relative path of a place. -/
def ofPlace (place : Location) : Path :=
  ofSegments .none (place.map Name.bytes)

theorem bytes_ofPlace (place : Location) :
    (ofPlace place).bytes = Text.joined [slash] (place.map Name.bytes) :=
  rfl

theorem lead_ofPlace (place : Location) : (ofPlace place).lead = .none := by
  rw [lead, bytes_ofPlace]
  cases place with
  | nil => rfl
  | cons name rest =>
      have hsplit := splitLead_of_isSolid name.isSolid name.isName.2.2
      cases rest with
      | nil =>
          have hsplit := hsplit []
          rw [List.append_nil] at hsplit
          rw [List.map_singleton, Text.joined, hsplit]
      | cons next rest =>
          rw [List.map_cons, Text.joined_cons _ _ (by simp), List.append_assoc, hsplit]

theorem segments_ofPlace {place : Location} (hne : place ≠ []) :
    (ofPlace place).segments = place.map Name.bytes := by
  rw [segments_of_lead_none (lead_ofPlace place), bytes_ofPlace, Text.pieces_joined]
  · simp [hne]
  · intro part hpart
    obtain ⟨name, -, rfl⟩ := List.mem_map.mp hpart
    exact name.isName.2.2

theorem isSolid_of_mem_place {place : Location} {piece : Bytes}
    (h : piece ∈ place.map Name.bytes) : isSolid piece = true := by
  obtain ⟨name, -, rfl⟩ := List.mem_map.mp h
  exact name.isSolid

theorem components_ofPlace {place : Location} (hne : place ≠ []) :
    (ofPlace place).components = place.map fun name => .name name.bytes := by
  have hsolid : (place.map Name.bytes).filter isSolid = place.map Name.bytes :=
    List.filter_eq_self.mpr fun _ => isSolid_of_mem_place
  rw [components, lead_ofPlace, segments_ofPlace hne, hsolid, List.map_map]
  apply List.map_congr_left
  intro name _
  exact name.solidComponent_bytes

theorem join_ofPlace (name : Name) {rest : Location} (hne : rest ≠ []) :
    Path.join ⟨name.bytes⟩ (ofPlace rest) = ofPlace (name :: rest) := by
  apply Path.ext
  rw [bytes_join (lead_ofPlace rest), bytes_ofPlace, bytes_ofPlace, List.map_cons,
    Text.joined_cons _ _ (by simp [hne]), front_name]

theorem below_eq_join (base : Path) {place : Location} (hne : place ≠ []) :
    base.below place = base.join (ofPlace place) := by
  induction place generalizing base with
  | nil => exact absurd rfl hne
  | cons name rest ih =>
      by_cases hlast : rest = []
      · subst hlast
        rfl
      · have hlead : Path.lead ⟨name.bytes⟩ = .none := lead_ofPlace [name]
        calc base.below (name :: rest) = (base.join ⟨name.bytes⟩).below rest := rfl
          _ = (base.join ⟨name.bytes⟩).join (ofPlace rest) := ih _ hlast
          _ = base.join (Path.join ⟨name.bytes⟩ (ofPlace rest)) :=
              join_assoc base hlead (lead_ofPlace rest)
          _ = base.join (ofPlace (name :: rest)) := by rw [join_ofPlace name hlast]

theorem components_below (base : Path) (place : Location) :
    (base.below place).components =
      base.components ++ place.map fun name => .name name.bytes := by
  by_cases hne : place = []
  · subst hne
    exact (List.append_nil _).symm
  · rw [below_eq_join base hne, components_join base (lead_ofPlace place), components_ofPlace hne]

theorem stripBase?_below {base : Path} (hbase : base.isEmpty = false) {place : Location}
    (hne : place ≠ []) : (base.below place).stripBase? base = some (ofPlace place) := by
  have htrim : ∀ {pieces : List Bytes}, (∀ piece ∈ pieces, isSolid piece = true) →
      pieces.dropWhile (fun piece => !isSolid piece) = pieces := by
    intro pieces hpieces
    cases pieces with
    | nil => rfl
    | cons piece more =>
        rw [List.dropWhile_cons_of_neg]
        simp [hpieces piece List.mem_cons_self]
  rw [below_eq_join base hne, stripBase?_join hbase (lead_ofPlace place), segments_ofPlace hne,
    trimLeft, htrim fun _ => isSolid_of_mem_place, trimRight, htrim, List.reverse_reverse]
  · rfl
  · intro piece hpiece
    exact isSolid_of_mem_place (List.mem_reverse.mp hpiece)

end FeatureCompiler.Path
