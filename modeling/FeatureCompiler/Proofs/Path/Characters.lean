import FeatureCompiler.Path.Relative
import FeatureCompiler.Proofs.Path.Join

/-!
The bytes of parts of a path. The components of a path, and what is left of it below a base, have no
bytes but those of the path, slashes and dots.
-/

namespace FeatureCompiler.Path

variable {path : Path} {b : UInt8}

theorem mem_bytes_of_mem_segments {piece : Bytes} (hpiece : piece ∈ path.segments)
    (hb : b ∈ piece) : b ∈ path.bytes := by
  rw [← splitLead_bytes path.bytes]
  exact List.mem_append_right _ (Text.mem_of_mem_pieces hpiece hb)

/-- What stands in a component stands in the path, but for what marks its start. -/
theorem mem_bytes_of_mem_components {component : Component}
    (hcomponent : component ∈ path.components)
    (hb : b ∈ component.bytes) : b = slash ∨ b = dot ∨ b ∈ path.bytes := by
  rw [components, List.mem_append, List.mem_map] at hcomponent
  rcases hcomponent with hlead | ⟨piece, hpiece, rfl⟩
  · cases hstart : path.lead with
    | root =>
        rw [hstart] at hlead
        obtain rfl := List.mem_singleton.mp hlead
        exact .inl (List.mem_singleton.mp hb)
    | here =>
        rw [hstart] at hlead
        obtain rfl := List.mem_singleton.mp hlead
        exact .inr (.inl (List.mem_singleton.mp hb))
    | none =>
        rw [hstart] at hlead
        cases hlead
  · have hbytes : (solidComponent piece).bytes = piece := by
      unfold solidComponent
      split
      · next hup => rw [hup]; rfl
      · rfl
    rw [hbytes] at hb
    exact .inr (.inr (mem_bytes_of_mem_segments (List.mem_filter.mp hpiece).1 hb))

theorem mem_of_mem_trimRight {piece : Bytes} {pieces : List Bytes}
    (h : piece ∈ trimRight pieces) : piece ∈ pieces :=
  List.mem_reverse.mp ((List.dropWhile_sublist _).mem (List.mem_reverse.mp h))

theorem mem_of_mem_dropSolid {n : Nat} {piece : Bytes} {pieces : List Bytes}
    (h : piece ∈ dropSolid n pieces) : piece ∈ pieces := by
  fun_induction dropSolid n pieces with
  | case1 => exact h
  | case2 => cases h
  | case3 n first pieces _ ih => exact List.mem_cons_of_mem _ (ih h)
  | case4 n first pieces _ ih => exact List.mem_cons_of_mem _ (ih h)

theorem mem_bytes_of_ofSegments {start : Lead} {pieces : List Bytes}
    (hpieces : ∀ piece ∈ pieces, piece ∈ path.segments)
    (hb : b ∈ (ofSegments start pieces).bytes) :
    b = slash ∨ b = dot ∨ b ∈ path.bytes := by
  rw [ofSegments, List.mem_append] at hb
  rcases hb with hstart | hjoined
  · cases start with
    | root => exact .inl (List.mem_singleton.mp hstart)
    | here => exact .inr (.inl (List.mem_singleton.mp hstart))
    | none => cases hstart
  · rcases Text.mem_joined hjoined with hslash | ⟨piece, hpiece, hb⟩
    · exact .inl (List.mem_singleton.mp hslash)
    · exact .inr (.inr (mem_bytes_of_mem_segments (hpieces piece hpiece) hb))

theorem mem_bytes_of_stripBase? {base rest : Path} (hrest : path.stripBase? base = some rest)
    (hb : b ∈ rest.bytes) : b = slash ∨ b = dot ∨ b ∈ path.bytes := by
  unfold stripBase? at hrest
  split at hrest
  · split at hrest
    · obtain rfl := Option.some.inj hrest
      exact mem_bytes_of_ofSegments (fun piece => mem_of_mem_trimRight) hb
    · obtain rfl := Option.some.inj hrest
      refine mem_bytes_of_ofSegments (fun piece hpiece => ?_) hb
      exact mem_of_mem_dropSolid ((List.dropWhile_sublist _).mem (mem_of_mem_trimRight hpiece))
  · cases hrest

end FeatureCompiler.Path
