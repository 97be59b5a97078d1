import FeatureCompiler.Disk.Basic
import FeatureCompiler.Proofs.Path.Extension

/-!
The paths above a path. They are spelled with the first pieces of the path, and their components are
the first components of the path: all but the last one for the directory in which the path names
something.
-/

namespace FeatureCompiler

theorem Text.joined_append (separator : Bytes) {first second : List Bytes}
    (hfirst : first ≠ []) (hsecond : second ≠ []) :
    joined separator (first ++ second) =
      joined separator first ++ separator ++ joined separator second := by
  induction first with
  | nil => exact absurd rfl hfirst
  | cons piece more ih =>
      rw [List.cons_append, joined_cons separator piece (by simp [hsecond])]
      cases more with
      | nil => rfl
      | cons next more =>
          rw [ih (List.cons_ne_nil _ _), joined_cons separator piece (List.cons_ne_nil _ _)]
          simp only [List.append_assoc]

namespace Path

/-- Whether a path is above another one. -/
def IsAncestor (above path : Path) : Prop :=
  above.components <+: path.components ∧ above.components ≠ path.components

/-- The first pieces of a path make a path that starts in the same way. -/
theorem splitLead_ofSegments {path : Path} {init rest : List Bytes}
    (hsegments : path.segments = init ++ rest) (hinit : init ≠ []) :
    splitLead (ofSegments path.lead init).bytes =
      (path.lead, Text.joined [slash] init) := by
  have hsplit : splitLead (path.lead.bytes ++ Text.joined [slash] (init ++ rest)) =
      (path.lead, Text.joined [slash] (init ++ rest)) := by
    rw [← hsegments, segments, Text.joined_pieces, lead, splitLead_bytes]
  rw [ofSegments]
  by_cases hrest : rest = []
  · rwa [hrest, List.append_nil] at hsplit
  · rw [Text.joined_append _ hinit hrest, List.append_assoc, List.singleton_append,
      ← List.append_assoc] at hsplit
    have hstart : path.lead.bytes ++ Text.joined [slash] init ≠ [] := by
      intro hnil
      have hroot : path.lead = .root := by
        rw [hnil] at hsplit
        exact (Prod.mk.inj hsplit).1.symm
      rw [hroot] at hnil
      cases hnil
    rw [splitLead_append_slash hstart] at hsplit
    obtain ⟨hlead, hbody⟩ := Prod.mk.inj hsplit
    exact Prod.ext hlead (List.append_cancel_right hbody)

theorem bytes_ofSegments_prefix (lead : Lead) (init more : List Bytes) :
    (ofSegments lead init).bytes <+: (ofSegments lead (init ++ more)).bytes := by
  rw [ofSegments, ofSegments, List.prefix_append_right_inj]
  by_cases hinit : init = []
  · rw [hinit]
    exact List.nil_prefix
  · by_cases hmore : more = []
    · simp [hmore]
    · rw [Text.joined_append _ hinit hmore, List.append_assoc]
      exact List.prefix_append _ _

theorem segments_ofSegments {path : Path} {init rest : List Bytes}
    (hsegments : path.segments = init ++ rest) (hinit : init ≠ []) :
    (ofSegments path.lead init).lead = path.lead ∧
      (ofSegments path.lead init).segments = init := by
  rw [lead, segments, splitLead_ofSegments hsegments hinit]
  refine ⟨rfl, Text.pieces_joined hinit ?_⟩
  intro piece hpiece
  have hmem : piece ∈ path.segments := by simp [hsegments, hpiece]
  exact Text.notMem_of_mem_pieces hmem

theorem components_ofSegments {path : Path} {init rest : List Bytes}
    (hsegments : path.segments = init ++ rest) :
    (ofSegments path.lead init).components =
      path.lead.components ++ (init.filter isSolid).map solidComponent := by
  by_cases hinit : init = []
  · rw [hinit]
    cases path.lead <;> rfl
  · obtain ⟨hlead, hpieces⟩ := segments_ofSegments hsegments hinit
    rw [components, hlead, hpieces]

theorem exists_trimRight_append (pieces : List Bytes) :
    ∃ rest, pieces = trimRight pieces ++ rest ∧ rest.filter isSolid = [] := by
  refine ⟨(pieces.reverse.takeWhile fun piece => !isSolid piece).reverse, ?_, ?_⟩
  · rw [trimRight, ← List.reverse_append, List.takeWhile_append_dropWhile, List.reverse_reverse]
  · rw [List.filter_reverse, List.filter_eq_nil_iff.mpr, List.reverse_nil]
    intro piece hpiece
    have hblank := List.all_eq_true.mp List.all_takeWhile piece hpiece
    simpa using hblank

theorem isSolid_of_trimRight {pieces init : List Bytes} {last : Bytes}
    (h : trimRight pieces = init ++ [last]) : isSolid last = true := by
  have hhead := List.head?_dropWhile_not (fun piece => !isSolid piece) pieces.reverse
  have hdrop : pieces.reverse.dropWhile (fun piece => !isSolid piece) = last :: init.reverse := by
    rw [trimRight] at h
    simpa using congrArg List.reverse h
  rw [hdrop] at hhead
  simpa using hhead

/-- The directory of a path starts like the path and lacks its last solid piece, or it is that in
which relative paths start. -/
theorem directory_cases (path : Path) :
    path.directory = ⟨[dot]⟩ ∧ (path.segments.filter isSolid).dropLast = [] ∨
    path.directory.lead = path.lead ∧ ∃ init last, path.segments.filter isSolid = init ++ [last] ∧
      path.directory.segments.filter isSolid = init := by
  obtain ⟨blank, hblank, hsolid⟩ := exists_trimRight_append path.segments
  rcases List.eq_nil_or_concat (trimRight path.segments) with hnil | ⟨init, last, hconcat⟩
  · left
    rw [hnil, List.nil_append] at hblank
    refine ⟨?_, by rw [hblank, hsolid, List.dropLast_nil]⟩
    rw [directory, parent?, hnil]
    cases path.lead <;> rfl
  · rw [List.concat_eq_append] at hconcat
    have hlast := isSolid_of_trimRight hconcat
    obtain ⟨more, hmore, hmore_solid⟩ := exists_trimRight_append init
    have hparent : path.parent? = some (ofSegments path.lead (trimRight init)) := by
      rw [parent?, hconcat]
      cases init with
      | nil => rfl
      | cons piece rest =>
          simp only [List.cons_append]
          rw [← List.cons_append, List.dropLast_concat]
    have hsegments : path.segments = trimRight init ++ (more ++ [last] ++ blank) := by
      calc path.segments = init ++ [last] ++ blank := by rw [← hconcat, ← hblank]
        _ = trimRight init ++ more ++ [last] ++ blank := by rw [← hmore]
        _ = trimRight init ++ (more ++ [last] ++ blank) := by simp only [List.append_assoc]
    have hpath : path.segments.filter isSolid = (trimRight init).filter isSolid ++ [last] := by
      rw [hsegments]
      simp [List.filter_append, hmore_solid, hsolid, hlast]
    rw [directory, hparent]
    simp only
    split
    · next hempty =>
        left
        refine ⟨rfl, ?_⟩
        have hcomponents := components_ofSegments hsegments
        rw [isEmpty, List.isEmpty_iff] at hempty
        rw [components, lead, segments, hempty] at hcomponents
        obtain ⟨-, hnone⟩ := List.append_eq_nil_iff.mp hcomponents.symm
        rw [hpath, List.dropLast_concat]
        exact List.map_eq_nil_iff.mp hnone
    · next hempty =>
        right
        refine ⟨?_, _, _, hpath, ?_⟩
        · by_cases hnone : trimRight init = []
          · rw [hnone] at hempty ⊢
            cases hlead : path.lead with
            | none =>
                rw [hlead] at hempty
                exact absurd rfl hempty
            | root => rfl
            | here => rfl
          · exact (segments_ofSegments hsegments hnone).1
        · by_cases hnone : trimRight init = []
          · rw [hnone] at hempty ⊢
            cases hlead : path.lead <;> rfl
          · rw [(segments_ofSegments hsegments hnone).2]

/-- The directory of a path has the components of the path but for the last. -/
theorem components_directory (path : Path) :
    path.directory = ⟨[dot]⟩ ∨ path.directory.components = path.components.dropLast := by
  rcases directory_cases path with ⟨hdot, -⟩ | ⟨hlead, init, last, hpath, hdirectory⟩
  · exact Or.inl hdot
  · right
    rw [components, components, hlead, hdirectory, hpath, List.map_append, ← List.append_assoc,
      List.map_singleton, List.dropLast_concat]

/-- The pieces of a path as a whole are its components, but for its start. -/
theorem filter_isSolid_pieces (path : Path) :
    (Text.pieces slash path.bytes).filter isSolid = path.segments.filter isSolid := by
  rw [segments]
  fun_cases splitLead path.bytes with
  | case1 => rfl
  | case2 => rfl
  | case3 first rest _ hdot =>
      rw [hdot.1]
      cases rest with
      | nil => rfl
      | cons next more =>
          obtain rfl : next = slash := by simpa using hdot.2
          rfl
  | case4 => rfl

/-- The pieces of a path as a whole end as its components do. -/
theorem exists_pieces_concat {path : Path} {init : List Bytes} {last : Bytes}
    (hsegments : path.segments = init ++ [last]) (hlast : isSolid last = true) :
    ∃ front, Text.pieces slash path.bytes = front ++ [last] ∧
      front.filter isSolid = init.filter isSolid := by
  rw [segments] at hsegments
  revert hsegments
  fun_cases splitLead path.bytes with
  | case1 =>
      intro hsegments
      exact ⟨init, hsegments, rfl⟩
  | case2 =>
      intro hsegments
      exact ⟨[] :: init, congrArg ([] :: ·) hsegments, rfl⟩
  | case3 first rest _ hdot =>
      intro hsegments
      rw [hdot.1]
      cases rest with
      | nil =>
          have hnil : [] = last := by simpa [Text.pieces] using congrArg List.getLast? hsegments
          subst hnil
          contradiction
      | cons next more =>
          obtain rfl : next = slash := by simpa using hdot.2
          cases init with
          | nil =>
              have hlength := congrArg List.length hsegments
              simp [Text.pieces, Text.pieces_ne_nil] at hlength
          | cons blank init =>
              obtain ⟨rfl, hinit⟩ := List.cons.inj hsegments
              exact ⟨[dot] :: init, congrArg ([dot] :: ·) hinit, rfl⟩
  | case4 =>
      intro hsegments
      exact ⟨init, hsegments, rfl⟩

theorem fileName?_of_pieces {path : Path} {before : List Bytes} {name : Name}
    (hpieces : Text.pieces slash path.bytes = before ++ [name.bytes]) :
    path.fileName? = some name.bytes := by
  rw [fileName?, ← filter_isSolid_pieces, hpieces, List.filter_append,
    List.filter_cons_of_pos name.isSolid, List.filter_nil, List.getLast?_concat]
  exact if_neg name.isName.2.1

theorem exists_name_of_fileName? {path : Path} {bytes : Bytes}
    (h : path.fileName? = some bytes) : ∃ name : Name, bytes = name.bytes := by
  rw [fileName?] at h
  split at h
  · next piece hlast =>
      split at h
      · cases h
      · next hup =>
          cases h
          obtain ⟨hmem, hsolid⟩ := List.mem_filter.mp (List.mem_of_getLast? hlast)
          exact ⟨⟨bytes, hsolid, hup, Text.notMem_of_mem_pieces hmem⟩, rfl⟩
  · cases h

theorem exists_components_of_fileName? {path : Path} {name : Bytes}
    (h : path.fileName? = some name) : ∃ init, path.components = init ++ [.name name] := by
  rw [fileName?] at h
  split at h
  · next piece hlast =>
      split at h
      · cases h
      · next hup =>
          cases h
          obtain ⟨init, hinit⟩ := List.getLast?_eq_some_iff.mp hlast
          refine ⟨path.lead.components ++ init.map solidComponent, ?_⟩
          rw [components, hinit, List.map_append, List.append_assoc, List.map_singleton,
            solidComponent, if_neg hup]
  · cases h

end Path

namespace Disk

theorem components_prefix_of_mem_ancestorsOf {path : Path} {above rest : List Bytes}
    (hsegments : path.segments = above.reverse ++ rest) {ancestor : Path}
    (h : ancestor ∈ ancestorsOf path.lead above) : ancestor.components <+: path.components := by
  induction above generalizing rest with
  | nil =>
      have hstart : path.lead.components <+: path.components := List.prefix_append _ _
      cases hlead : path.lead with
      | root =>
          rw [hlead] at h hstart
          cases List.mem_singleton.mp h
          exact hstart
      | none =>
          rw [hlead] at h
          cases List.mem_singleton.mp h
          exact List.nil_prefix
      | here =>
          rw [hlead] at h hstart
          rcases List.mem_cons.mp h with rfl | h
          · exact hstart
          · cases List.mem_singleton.mp h
            exact List.nil_prefix
  | cons piece above ih =>
      have hshorter : path.segments = above.reverse ++ (piece :: rest) := by
        rw [hsegments, List.reverse_cons, List.append_assoc]
        rfl
      rw [ancestorsOf] at h
      split at h
      · rcases List.mem_cons.mp h with rfl | h
        · rw [Path.components_ofSegments hsegments, Path.components, hsegments, List.filter_append,
            List.map_append, ← List.append_assoc]
          exact List.prefix_append _ _
        · exact ih hshorter h
      · exact ih hshorter h

theorem components_prefix_of_mem_ancestors {path ancestor : Path}
    (h : ancestor ∈ ancestors path) : ancestor.components <+: path.components := by
  have hsegments : path.segments = path.segments.reverse.reverse ++ [] := by
    rw [List.reverse_reverse, List.append_nil]
  exact components_prefix_of_mem_ancestorsOf hsegments h

/-- An ancestor of the directory of a path that names something is above the path. -/
theorem isAncestor_of_mem_ancestors_directory {path above : Path}
    (h : above ∈ ancestors path.directory) (hname : above.fileName?.isSome = true) :
    above.IsAncestor path := by
  obtain ⟨name, hname⟩ := Option.isSome_iff_exists.mp hname
  rcases Path.components_directory path with hdot | hdirectory
  · -- the directory in which a build runs has no path above it with a name
    rw [hdot] at h
    rcases List.mem_cons.mp h with rfl | h
    · cases hname
    · cases List.mem_singleton.mp h
      cases hname
  · obtain ⟨init, hinit⟩ := Path.exists_components_of_fileName? hname
    have habove := components_prefix_of_mem_ancestors h
    rw [hdirectory] at habove
    refine ⟨habove.trans (List.dropLast_prefix _), ?_⟩
    intro heq
    have hlength := habove.length_le
    rw [heq, List.length_dropLast] at hlength
    have hpositive : path.components.length ≠ 0 := by simp [← heq, hinit]
    omega

end Disk

end FeatureCompiler
