import FeatureCompiler.Proofs.Disk.Growth

/-!
Directories that are reached by names. A path is followed through directories only, so that pieces
that do not count make no difference to where it leads as long as it has to end in a directory. What
a path needs from the disk is then a matter of its start and its solid pieces.
-/

namespace FeatureCompiler.Disk

theorem accept_ne_notFound (path : Path) : accept path ≠ .error .notFound := by
  rw [accept]
  split
  · exact nofun
  · split
    · exact nofun
    · exact nofun

theorem isDirectory_of_enter {disk : Disk} {place next : Location} {piece : Bytes}
    (h : disk.enter place piece = .ok next) (hpiece : ¬ Path.IsName piece) :
    disk.root.entryAt? next = some .directory := by
  obtain ⟨hplace, -, rfl⟩ := enter_eq_ok h
  split
  · rw [Path.solidComponent]
    split
    · change disk.root.entryAt? place.dropLast = some .directory
      rcases List.eq_nil_or_concat place with rfl | ⟨above, name, rfl⟩
      · exact hplace
      · rw [List.concat_eq_append] at hplace ⊢
        rw [List.dropLast_concat]
        exact Node.entryAt?_dropLast hplace
    · rw [Path.Component.step, Name.ofPiece?_eq_none_iff.mpr hpiece, Option.toList_none,
        List.append_nil]
      exact hplace
  · exact hplace

theorem enter_name {disk : Disk} {place : Location} (name : Name)
    (hplace : disk.root.entryAt? place = some .directory) :
    disk.enter place name.bytes =
      if isTooLong nameLimit name.bytes then .error .nameTooLong
      else if (disk.root.entryAt? (place ++ [name])).isSome then .ok (place ++ [name])
      else .error .notFound := by
  rw [enter_eq, hplace, name.isSolid, Name.ofPiece?_bytes]
  exact if_neg name.isName.2.1

/-- Names that lead down to something that is there can be followed, unless one is too long. -/
theorem foldlM_enter_place {disk : Disk} {start place : Location}
    (hentry : (disk.root.entryAt? (start ++ place)).isSome = true) :
    (place.map Name.bytes).foldlM disk.enter start = .ok (start ++ place) ∨
      (place.map Name.bytes).foldlM disk.enter start = .error .nameTooLong := by
  induction place generalizing start with
  | nil =>
      left
      rw [List.append_nil]
      rfl
  | cons name rest ih =>
      rw [List.append_cons] at hentry
      have hchild : (disk.root.entryAt? (start ++ [name])).isSome = true := by
        rw [Node.entryAt?_append] at hentry
        rw [Node.entryAt?]
        cases hget : disk.root.get? (start ++ [name]) with
        | none =>
            rw [hget] at hentry
            cases hentry
        | some node => rfl
      obtain ⟨found, hfound⟩ := Option.isSome_iff_exists.mp hchild
      have hstart := Node.entryAt?_dropLast hfound
      rw [List.map_cons, List.foldlM_cons, enter_name name hstart, if_pos hchild]
      split
      · exact Or.inr rfl
      · rw [List.append_cons start name rest]
        exact ih hentry

theorem isTooLong_of_enter {disk : Disk} {place next : Location} {piece : Bytes}
    (h : disk.enter place piece = .ok next) : isTooLong nameLimit piece = false := by
  obtain ⟨hplace, -, -⟩ := enter_eq_ok h
  rw [enter_eq, hplace] at h
  dsimp only at h
  split at h
  · next hblank =>
      have hshort : piece = [] ∨ piece = [Path.dot] := by
        simpa [Path.isSolid, Classical.or_iff_not_imp_left] using hblank
      rcases hshort with rfl | rfl <;> decide
  · split at h
    · next hup =>
        rw [hup]
        decide
    · split at h
      · cases h
      · next hlong => exact (Bool.not_eq_true _).mp hlong

/-- A place that has to be a directory. -/
def asDirectory (disk : Disk) (place : Location) : Except DiskFault Location :=
  match disk.root.entryAt? place with
  | none => .error .notFound
  | some (.file _) => .error .notADirectory
  | some .directory => .ok place

/-- The directory that some pieces lead to. -/
def reach (disk : Disk) (start : Location) (pieces : List Bytes) :
    Except DiskFault Location :=
  pieces.foldlM disk.enter start >>= disk.asDirectory

/-- Where the pieces of a path are followed from. -/
def startOf (disk : Disk) (path : Path) : Location :=
  if path.isAbsolute then [] else disk.workingDirectory

theorem asDirectory_eq_ok_iff {disk : Disk} {place found : Location} :
    disk.asDirectory place = .ok found ↔
      disk.root.entryAt? place = some .directory ∧ found = place := by
  rw [asDirectory]
  split
  · next h => simp [h]
  · next h => simp [h]
  · next h => simp [h, eq_comm]

/-- A step along a path starts in a directory. -/
theorem enter_eq_bind (disk : Disk) (place : Location) (piece : Bytes) :
    disk.enter place piece = disk.asDirectory place >>= fun place => disk.enter place piece := by
  rw [asDirectory]
  split
  · next h =>
      rw [enter_eq, h]
      rfl
  · next h =>
      rw [enter_eq, h]
      rfl
  · rfl

theorem enter_of_not_isSolid (disk : Disk) (place : Location) {piece : Bytes}
    (h : Path.isSolid piece = false) : disk.enter place piece = disk.asDirectory place := by
  rw [enter_eq, asDirectory, h]
  rfl

/-- Two dots lead from a directory to a directory. -/
theorem enter_up {disk : Disk} {place : Location}
    (h : disk.root.entryAt? place = some .directory) :
    disk.enter place [Path.dot, Path.dot] >>= disk.asDirectory = .ok place.dropLast := by
  have henter : disk.enter place [Path.dot, Path.dot] = .ok place.dropLast := by
    rw [enter_eq, h]
    rfl
  rw [henter]
  exact asDirectory_eq_ok_iff.mpr ⟨isDirectory_of_enter henter (by decide), rfl⟩

theorem reach_nil (disk : Disk) (start : Location) :
    disk.reach start [] = disk.asDirectory start :=
  rfl

theorem reach_cons (disk : Disk) (start : Location) (piece : Bytes) (rest : List Bytes) :
    disk.reach start (piece :: rest) =
      disk.enter start piece >>= fun next => disk.reach next rest := by
  rw [reach, List.foldlM_cons, bind_assoc]
  rfl

/-- What is reached is reached from a directory. -/
theorem reach_eq_bind (disk : Disk) (start : Location) (pieces : List Bytes) :
    disk.reach start pieces = disk.asDirectory start >>= fun start => disk.reach start pieces := by
  cases pieces with
  | nil =>
      rw [reach_nil]
      cases h : disk.asDirectory start with
      | error fault => rfl
      | ok found =>
          obtain ⟨-, rfl⟩ := asDirectory_eq_ok_iff.mp h
          exact h.symm
  | cons piece rest =>
      simp only [reach_cons]
      rw [enter_eq_bind, bind_assoc]

/-- Pieces that do not count make no difference to the directory that is reached. -/
theorem reach_filter (disk : Disk) (start : Location) (pieces : List Bytes) :
    disk.reach start pieces = disk.reach start (pieces.filter Path.isSolid) := by
  induction pieces generalizing start with
  | nil => rfl
  | cons piece rest ih =>
      rw [reach_cons]
      cases hsolid : Path.isSolid piece with
      | true =>
          rw [List.filter_cons_of_pos hsolid, reach_cons]
          congr 1
          funext next
          exact ih next
      | false =>
          rw [List.filter_cons_of_neg (by simp [hsolid]), ← ih start,
            enter_of_not_isSolid disk start hsolid, ← reach_eq_bind]

/-- The last step to a directory. -/
theorem reach_concat (disk : Disk) (start : Location) (pieces : List Bytes) (last : Bytes) :
    disk.reach start (pieces ++ [last]) =
      disk.reach start pieces >>= fun place => disk.enter place last >>= disk.asDirectory := by
  induction pieces generalizing start with
  | nil =>
      rw [List.nil_append, reach_cons, reach_nil, enter_eq_bind, bind_assoc]
      rfl
  | cons piece rest ih =>
      rw [List.cons_append, reach_cons, reach_cons, bind_assoc]
      congr 1
      funext next
      exact ih next

theorem reach_eq_ok {disk : Disk} {start place : Location} {pieces : List Bytes}
    (h : disk.reach start pieces = .ok place) : disk.root.entryAt? place = some .directory := by
  obtain ⟨found, -, hfound⟩ := bind_eq_ok h
  obtain ⟨hdirectory, rfl⟩ := asDirectory_eq_ok_iff.mp hfound
  exact hdirectory

theorem reach_concat_up {disk : Disk} {start place : Location} {names : List Bytes}
    (h : disk.reach start names = .ok place) :
    disk.reach start (names ++ [[Path.dot, Path.dot]]) = .ok place.dropLast := by
  rw [reach_concat, h]
  exact enter_up (reach_eq_ok h)

theorem Keeps.reach {earlier later : Disk} (h : Keeps earlier later) {start : Location}
    {pieces : List Bytes} (hfound : earlier.reach start pieces ≠ .error .notFound) :
    later.reach start pieces = earlier.reach start pieces := by
  rw [Disk.reach] at hfound ⊢
  rw [Disk.reach]
  have hsteps : pieces.foldlM earlier.enter start ≠ .error .notFound := by
    intro herror
    rw [herror] at hfound
    exact hfound rfl
  rw [h.foldlM_enter hsteps]
  cases hplace : pieces.foldlM earlier.enter start with
  | error fault => rfl
  | ok place =>
      rw [hplace] at hfound
      change later.asDirectory place = earlier.asDirectory place
      replace hfound : earlier.asDirectory place ≠ .error .notFound := hfound
      rw [asDirectory] at hfound ⊢
      rw [asDirectory]
      cases hentry : earlier.root.entryAt? place with
      | none =>
          rw [hentry] at hfound
          exact absurd rfl hfound
      | some found =>
          cases found with
          | file contents =>
              obtain ⟨_, hlater⟩ := h.file hentry
              rw [hlater]
          | directory => rw [h.directory hentry]

theorem Keeps.startOf {earlier later : Disk} (h : Keeps earlier later) (path : Path) :
    later.startOf path = earlier.startOf path := by
  rw [Disk.startOf, Disk.startOf, h.workingDirectory]

/-- The directory in which a path names something, by what its spelling has before the end. -/
theorem locateParent_eq_reach (disk : Disk) (path : Path) :
    disk.locateParent path = (do
      accept path
      let place ← disk.reach (disk.startOf path)
        ((Text.pieces Path.slash path.bytes).dropLast.filter Path.isSolid)
      if isTooLong nameLimit ((Text.pieces Path.slash path.bytes).getLastD []) then
        .error .nameTooLong
      else .ok (place, (Text.pieces Path.slash path.bytes).getLastD [])) := by
  rw [locateParent_eq, ← reach_filter]
  congr 1
  funext _
  rw [reach, bind_assoc]
  congr 1
  funext place
  rw [asDirectory]
  cases disk.root.entryAt? place with
  | none => rfl
  | some found => cases found <;> rfl

theorem isDirectory_iff_reach {disk : Disk} {path : Path} :
    disk.isDirectory path = true ↔ accept path = .ok () ∧ path.isEmpty = false ∧
      ∃ place, disk.reach (disk.startOf path) (path.segments.filter Path.isSolid) = .ok place := by
  rw [← Path.filter_isSolid_pieces, ← reach_filter, isDirectory_eq_true_iff]
  constructor
  · rintro ⟨place, hlocate, hdirectory⟩
    obtain ⟨haccept, hempty, hfollow⟩ := locate_eq_ok_iff.mp hlocate
    refine ⟨haccept, hempty, place, bind_eq_ok_iff.mpr ⟨place, hfollow, ?_⟩⟩
    exact asDirectory_eq_ok_iff.mpr ⟨hdirectory, rfl⟩
  · rintro ⟨haccept, hempty, place, hreach⟩
    obtain ⟨found, hfollow, hfound⟩ := bind_eq_ok hreach
    obtain ⟨hdirectory, rfl⟩ := asDirectory_eq_ok_iff.mp hfound
    exact ⟨place, locate_eq_ok_iff.mpr ⟨haccept, hempty, hfollow⟩, hdirectory⟩

/-- Unless something is missing on the way, a path names something in the same directory later. -/
theorem Keeps.locateParent {earlier later : Disk} (h : Keeps earlier later) {path : Path}
    (hfound : earlier.locateParent path ≠ .error .notFound) :
    later.locateParent path = earlier.locateParent path := by
  rw [locateParent_eq_reach] at hfound ⊢
  rw [locateParent_eq_reach, h.startOf]
  cases haccept : accept path with
  | error fault => rfl
  | ok done =>
      rw [haccept] at hfound
      have hreach : earlier.reach (earlier.startOf path)
          ((Text.pieces Path.slash path.bytes).dropLast.filter Path.isSolid) ≠
            .error .notFound := by
        intro herror
        rw [herror] at hfound
        exact hfound rfl
      rw [h.reach hreach]

theorem accept_of_prefix {p q : Path} (h : q.bytes <+: p.bytes)
    (haccept : accept p = .ok ()) : accept q = .ok () := by
  obtain ⟨rest, hrest⟩ := h
  rw [accept] at haccept ⊢
  split at haccept
  · cases haccept
  · next hzero =>
      split at haccept
      · cases haccept
      · next hlong =>
          have hzero_q : ¬ holdsZero q = true := by
            intro hholds
            rw [holdsZero, List.contains_iff_mem] at hholds hzero
            exact hzero (hrest ▸ List.mem_append_left _ hholds)
          have hlong_q : ¬ isTooLong pathLimit q.bytes = true := by
            intro hq
            rw [isTooLong, decide_eq_true_eq] at hq hlong
            rw [← hrest, List.length_append] at hlong
            omega
          rw [if_neg hzero_q, if_neg hlong_q]

/-- Names that lead down to a file have nothing missing on the way. -/
theorem reach_ne_notFound_of_file {disk : Disk} {start names : Location} {contents : Contents}
    (hentry : disk.root.entryAt? (start ++ names) = some (.file contents)) :
    disk.reach start (names.map Name.bytes) ≠ .error .notFound := by
  have hsome : (disk.root.entryAt? (start ++ names)).isSome = true := by
    rw [hentry]
    rfl
  rw [reach]
  rcases foldlM_enter_place hsome with hfound | hlong
  · rw [hfound]
    change disk.asDirectory _ ≠ _
    rw [asDirectory, hentry]
    exact nofun
  · rw [hlong]
    exact nofun

/-- Names that are followed lead straight down. -/
theorem eq_append_of_reach {disk : Disk} {start place names : Location}
    (h : disk.reach start (names.map Name.bytes) = .ok place) : place = start ++ names := by
  obtain ⟨found, hfollow, hfound⟩ := bind_eq_ok h
  obtain ⟨-, rfl⟩ := asDirectory_eq_ok_iff.mp hfound
  rw [foldlM_enter_eq_ok hfollow, List.filter_eq_self.mpr fun _ => Path.isSolid_of_mem_place,
    List.map_map, ← Path.foldl_step_names]
  congr 1
  exact List.map_congr_left fun name _ => name.solidComponent_bytes

theorem startOf_congr (disk : Disk) {p q : Path} (h : p.lead = q.lead) :
    disk.startOf p = disk.startOf q := by
  rw [startOf, startOf, Path.isAbsolute, Path.isAbsolute, h]

/-- Whether a disk has the directory that relative paths start from. -/
def HasWorkingDirectory (disk : Disk) : Prop :=
  disk.root.entryAt? disk.workingDirectory = some .directory

theorem HasWorkingDirectory.keeps {disk later : Disk} (h : disk.HasWorkingDirectory)
    (hkeeps : Keeps disk later) : later.HasWorkingDirectory := by
  rw [HasWorkingDirectory, hkeeps.workingDirectory]
  exact hkeeps.directory h

theorem HasWorkingDirectory.entryAt?_startOf {disk : Disk} (h : disk.HasWorkingDirectory)
    (path : Path) : disk.root.entryAt? (disk.startOf path) = some .directory := by
  rw [HasWorkingDirectory] at h
  rw [startOf]
  split
  · cases hroot : disk.root with
    | directory entries => rfl
    | file contents =>
        rw [hroot] at h
        cases hplace : disk.workingDirectory with
        | nil =>
            rw [hplace] at h
            cases h
        | cons name rest =>
            rw [hplace] at h
            cases h
  · exact h

theorem reach_startOf {disk : Disk} (h : disk.HasWorkingDirectory) (path : Path) :
    disk.reach (disk.startOf path) [] = .ok (disk.startOf path) :=
  asDirectory_eq_ok_iff.mpr ⟨h.entryAt?_startOf path, rfl⟩

end FeatureCompiler.Disk
