import FeatureCompiler.Proofs.Disk.Reaching

/-!
Making directories. What becomes of one directory depends on the directory in which its path names
something; what becomes of all directories of a path, on the lowest one. A directory that has been
made can be reached by the solid pieces of its path, and it is left as it is the next time.
-/

namespace FeatureCompiler

/-- Whether a path is spelled with these solid pieces and one more, at the very end. -/
structure Path.EndsIn (path : Path) (names : List Bytes) (last : Bytes) : Prop where
  isSolid : Path.isSolid last = true
  pieces : ∃ front, Text.pieces Path.slash path.bytes = front ++ [last] ∧
    front.filter Path.isSolid = names

namespace Path.EndsIn

variable {path : Path} {names : List Bytes} {last : Bytes}

theorem of_segments {init : List Bytes} (h : path.segments = init ++ [last])
    (hlast : Path.isSolid last = true) : path.EndsIn (init.filter Path.isSolid) last :=
  ⟨hlast, exists_pieces_concat h hlast⟩

theorem filter_segments (h : path.EndsIn names last) :
    path.segments.filter Path.isSolid = names ++ [last] := by
  obtain ⟨front, hpieces, rfl⟩ := h.pieces
  rw [← filter_isSolid_pieces, hpieces, List.filter_append, List.filter_cons_of_pos h.isSolid,
    List.filter_nil]

theorem exists_name (h : path.EndsIn names last) (hup : last ≠ [dot, dot]) :
    ∃ name : Name, last = name.bytes := by
  obtain ⟨front, hpieces, -⟩ := h.pieces
  have hmem : last ∈ Text.pieces slash path.bytes := by simp [hpieces]
  exact ⟨⟨last, h.isSolid, hup, Text.notMem_of_mem_pieces hmem⟩, rfl⟩

theorem isEmpty_eq_false (h : path.EndsIn names last) : path.isEmpty = false := by
  rw [← Bool.not_eq_true, Path.isEmpty, List.isEmpty_iff]
  intro hempty
  have hsolid := h.filter_segments
  rw [segments, hempty] at hsolid
  simp [splitLead, Text.pieces, Path.isSolid] at hsolid

/-- Where such a path names something: in the directory that the other pieces lead to. -/
theorem locateParent (h : path.EndsIn names last) (disk : Disk)
    (haccept : Disk.accept path = .ok ()) :
    disk.locateParent path = (do
      let place ← disk.reach (disk.startOf path) names
      if Disk.isTooLong Disk.nameLimit last then .error .nameTooLong else .ok (place, last)) := by
  obtain ⟨front, hpieces, rfl⟩ := h.pieces
  rw [Disk.locateParent_eq_reach, haccept, hpieces, List.dropLast_concat,
    List.getLastD_eq_getLast?, List.getLast?_concat, Option.getD_some]
  rfl

theorem isDirectory_iff (h : path.EndsIn names last) {disk : Disk}
    (haccept : Disk.accept path = .ok ()) :
    disk.isDirectory path = true ↔
      ∃ place, disk.reach (disk.startOf path) (names ++ [last]) = .ok place := by
  rw [Disk.isDirectory_iff_reach, h.filter_segments]
  exact ⟨fun ⟨_, _, hplace⟩ => hplace, fun hplace => ⟨haccept, h.isEmpty_eq_false, hplace⟩⟩

end Path.EndsIn

namespace Disk

/-- What making a directory comes to once its parent is known. -/
theorem makeDirectory_of_locateParent {disk : Disk} {path : Path} {above : Location}
    {piece : Bytes} (h : disk.locateParent path = .ok (above, piece)) :
    disk.makeDirectory path =
      match Name.ofPiece? piece with
      | some name =>
          if (disk.root.entryAt? (above ++ [name])).isSome then .error .alreadyExists
          else .ok (disk.put (above ++ [name]) .directory)
      | none => .error .alreadyExists := by
  simp only [makeDirectory, h, Node.entryAt?, Option.isSome_map]
  rfl

theorem makeDirectory_of_locateParent_error {disk : Disk} {path : Path} {fault : DiskFault}
    (h : disk.locateParent path = .error fault) : disk.makeDirectory path = .error fault := by
  rw [makeDirectory, h]
  rfl

theorem makeDirectory_of_accept_error {disk : Disk} {path : Path} {fault : DiskFault}
    (h : accept path = .error fault) : disk.makeDirectory path = .error fault := by
  apply makeDirectory_of_locateParent_error
  rw [locateParent_eq, h]
  rfl

/-- Something is missing for a directory if its parent cannot be reached. -/
theorem makeDirectory_eq_notFound_iff {disk : Disk} {path : Path} {names : List Bytes}
    {last : Bytes} (hends : path.EndsIn names last) :
    disk.makeDirectory path = .error .notFound ↔
      accept path = .ok () ∧ disk.reach (disk.startOf path) names = .error .notFound := by
  cases haccept : accept path with
  | error fault =>
      rw [makeDirectory_of_accept_error haccept]
      constructor
      · intro h
        cases h
        exact absurd haccept (accept_ne_notFound path)
      · rintro ⟨h, -⟩
        cases h
  | ok done =>
      have hparent := hends.locateParent disk haccept
      cases hreach : disk.reach (disk.startOf path) names with
      | error fault =>
          rw [hreach] at hparent
          rw [makeDirectory_of_locateParent_error hparent]
          simp
      | ok place =>
          rw [hreach] at hparent
          refine ⟨?_, fun h => by cases h.2⟩
          intro h
          cases hlong : isTooLong nameLimit last with
          | true =>
              simp only [bind, Except.bind, hlong, if_true] at hparent
              rw [makeDirectory_of_locateParent_error hparent] at h
              cases h
          | false =>
              simp only [bind, Except.bind, hlong, Bool.false_eq_true, if_false] at hparent
              rw [makeDirectory_of_locateParent hparent] at h
              split at h
              · split at h <;> cases h
              · cases h

/-- A directory that is there is not made again. -/
theorem makeDirectory_of_isDirectory {disk : Disk} {path : Path}
    (h : disk.isDirectory path = true) : disk.makeDirectory path = .error .alreadyExists := by
  obtain ⟨place, hlocate, -⟩ := isDirectory_eq_true_iff.mp h
  obtain ⟨haccept, -, hfollow⟩ := locate_eq_ok_iff.mp hlocate
  have hpieces := pieces_eq_concat path
  rw [follow, hpieces, List.foldlM_append] at hfollow
  obtain ⟨above, habove, hrest⟩ := bind_eq_ok hfollow
  obtain ⟨next, henter, hdone⟩ := bind_eq_ok hrest
  cases hdone
  obtain ⟨hdirectory, hentry, hplace⟩ := enter_eq_ok henter
  have hparent : disk.locateParent path =
      .ok (above, (Text.pieces Path.slash path.bytes).getLastD []) := by
    rw [locateParent_eq, haccept, follow, habove]
    simp only [bind, Except.bind, hdirectory, isTooLong_of_enter henter, Bool.false_eq_true,
      if_false]
  rw [makeDirectory_of_locateParent hparent]
  split
  · next name hname =>
      rw [Name.ofPiece?_eq_some_iff.mp hname, if_pos name.isSolid, name.solidComponent_bytes,
        Path.Component.step_name] at hplace
      rw [hplace] at hentry
      exact if_pos hentry
  · rfl

theorem ensureDirectory_of_isDirectory {disk : Disk} {path : Path}
    (h : disk.isDirectory path = true) : disk.ensureDirectory path = (.ok (), disk) := by
  rw [ensureDirectory, makeDirectory_of_isDirectory h]
  simp only [h, if_true]

theorem ensureDirectory_eq_error {disk later : Disk} {path : Path} {fault : DiskFault}
    (h : disk.ensureDirectory path = (.error fault, later)) :
    later = disk ∧ disk.makeDirectory path = .error fault ∧ disk.isDirectory path = false := by
  rw [ensureDirectory] at h
  split at h
  · cases h
  · next found hmake =>
      split at h
      · cases h
      · next hdirectory =>
          cases h
          exact ⟨rfl, hmake, (Bool.not_eq_true _).mp hdirectory⟩

theorem isDirectory_of_ensureDirectory {disk made : Disk} {path : Path}
    (h : disk.ensureDirectory path = (.ok (), made)) : made.isDirectory path = true := by
  rw [ensureDirectory] at h
  split at h
  · next found hmade =>
      cases h
      exact (growsBy_makeDirectory hmade).2
  · split at h
    · next hdirectory =>
        cases h
        exact hdirectory
    · cases h

theorem ensureAll_of_isDirectory {disk : Disk} {path : Path} (h : disk.isDirectory path = true)
    (above : List Path) : disk.ensureAll (path :: above) = (.ok (), disk) := by
  rw [ensureAll, makeDirectory_of_isDirectory h, ensureDirectory_of_isDirectory h]
  split <;> rfl

/-- What is made is there afterwards. -/
theorem isDirectory_of_ensureAll {disk made : Disk} {paths : List Path}
    (h : disk.ensureAll paths = (.ok (), made)) :
    ∃ path above, paths = path :: above ∧
      (path.isEmpty = true ∨ made.isDirectory path = true) := by
  cases paths with
  | nil => cases h
  | cons path above =>
      refine ⟨path, above, rfl, ?_⟩
      rw [ensureAll] at h
      split at h
      · next hempty => exact Or.inl hempty
      · split at h
        · split at h
          · exact Or.inr (isDirectory_of_ensureDirectory h)
          · cases h
        · exact Or.inr (isDirectory_of_ensureDirectory h)

/-- Directories that were made are left as they are the next time. -/
theorem ensureAll_again {disk made later : Disk} {paths : List Path}
    (h : disk.ensureAll paths = (.ok (), made)) (hkeeps : Keeps made later) :
    later.ensureAll paths = (.ok (), later) := by
  obtain ⟨path, above, rfl, hempty | hdirectory⟩ := isDirectory_of_ensureAll h
  · rw [ensureAll, if_pos hempty]
  · exact ensureAll_of_isDirectory (hkeeps.isDirectory hdirectory) above

/-- The paths above all names of a path are there, or are empty. -/
theorem ensureAll_ancestorsOf_nil {disk : Disk} (h : disk.HasWorkingDirectory)
    (lead : Path.Lead) : disk.ensureAll (ancestorsOf lead []) = (.ok (), disk) := by
  cases lead with
  | none => rfl
  | root =>
      apply ensureAll_of_isDirectory
      exact isDirectory_iff_reach.mpr ⟨rfl, rfl, _, reach_startOf h _⟩
  | here =>
      apply ensureAll_of_isDirectory
      exact isDirectory_iff_reach.mpr ⟨rfl, rfl, _, reach_startOf h _⟩

/-- The first pieces of a path, up to a solid one, as a path of their own. -/
theorem endsIn_ofSegments {path : Path} {init rest : List Bytes} {last : Bytes}
    (hsegments : path.segments = init ++ [last] ++ rest) (hlast : Path.isSolid last = true) :
    (Path.ofSegments path.lead (init ++ [last])).lead = path.lead ∧
      (Path.ofSegments path.lead (init ++ [last])).EndsIn (init.filter Path.isSolid) last := by
  obtain ⟨hlead, hpieces⟩ := Path.segments_ofSegments hsegments (by simp)
  exact ⟨hlead, .of_segments hpieces hlast⟩

/-- The directories above a path that were made can be reached. -/
theorem reach_of_ensureAll {disk made : Disk} (hworking : disk.HasWorkingDirectory) {path : Path}
    {above rest : List Bytes} (hsegments : path.segments = above.reverse ++ rest)
    (h : disk.ensureAll (ancestorsOf path.lead above) = (.ok (), made)) :
    ∃ place, made.reach (made.startOf path) (above.reverse.filter Path.isSolid) = .ok place := by
  induction above generalizing rest with
  | nil =>
      rw [ensureAll_ancestorsOf_nil hworking] at h
      cases h
      exact ⟨_, reach_startOf hworking path⟩
  | cons piece above ih =>
      rw [List.reverse_cons] at hsegments ⊢
      cases hsolid : Path.isSolid piece with
      | false =>
          rw [ancestorsOf, if_neg (by simp [hsolid])] at h
          rw [List.append_assoc] at hsegments
          rw [List.filter_append, List.filter_cons_of_neg (by simp [hsolid]), List.filter_nil,
            List.append_nil]
          exact ih hsegments h
      | true =>
          obtain ⟨hlead, hends⟩ := endsIn_ofSegments hsegments hsolid
          rw [ancestorsOf, if_pos hsolid, List.reverse_cons] at h
          obtain ⟨_, _, hpaths, hmade⟩ := isDirectory_of_ensureAll h
          cases hpaths
          rw [hends.isEmpty_eq_false] at hmade
          have hdirectory := hmade.resolve_left Bool.false_ne_true
          obtain ⟨-, -, hreach⟩ := isDirectory_iff_reach.mp hdirectory
          rw [hends.filter_segments, made.startOf_congr hlead] at hreach
          rw [List.filter_append, List.filter_cons_of_pos hsolid, List.filter_nil]
          exact hreach

end Disk

end FeatureCompiler
