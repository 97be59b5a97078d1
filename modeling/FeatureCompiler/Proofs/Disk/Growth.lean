import FeatureCompiler.Proofs.Disk.Following

/-!
What operations do to a disk. Nothing that is there goes away: a directory that is made was missing
before, and a file that is written takes the place of a file or of nothing. The directories that a
write makes are above the path that is written, and without success it changes no file.
-/

namespace FeatureCompiler.Disk

/-- A disk after directories were made at some paths and files written. What stands at a place is
what stood there, a directory where nothing was, or one of the files where no directory was. -/
structure GrowsBy (directories : Path → Prop) (files : List (Path × Contents))
    (earlier later : Disk) : Prop where
  workingDirectory : later.workingDirectory = earlier.workingDirectory
  entry (place : Location) :
    later.root.entryAt? place = earlier.root.entryAt? place ∨
    (earlier.root.entryAt? place = none ∧ later.root.entryAt? place = some .directory ∧
      ∃ path, directories path ∧ later.locate path = .ok place) ∨
    (earlier.root.entryAt? place ≠ some .directory ∧
      ∃ file ∈ files, later.locate file.1 = .ok place ∧
        later.root.entryAt? place = some (.file file.2))

namespace GrowsBy

variable {directories more : Path → Prop} {files others : List (Path × Contents)}
  {first earlier later : Disk}

theorem refl (directories : Path → Prop) (files : List (Path × Contents)) (disk : Disk) :
    GrowsBy directories files disk disk :=
  ⟨rfl, fun _ => Or.inl rfl⟩

theorem mono (h : GrowsBy directories files earlier later)
    (hdirectories : ∀ path, directories path → more path) (hfiles : files ⊆ others) :
    GrowsBy more others earlier later where
  workingDirectory := h.workingDirectory
  entry place := by
    rcases h.entry place with hsame | ⟨hnone, hmade, path, hpath, hplace⟩ |
      ⟨hfree, file, hfile, hwritten⟩
    · exact Or.inl hsame
    · exact Or.inr (Or.inl ⟨hnone, hmade, path, hdirectories path hpath, hplace⟩)
    · exact Or.inr (Or.inr ⟨hfree, file, hfiles hfile, hwritten⟩)

theorem keeps (h : GrowsBy directories files earlier later) : Keeps earlier later where
  workingDirectory := h.workingDirectory
  directory {place} hplace := by
    rcases h.entry place with hsame | ⟨hnone, -⟩ | ⟨hfree, -⟩
    · rw [hsame, hplace]
    · rw [hplace] at hnone
      cases hnone
    · exact absurd hplace hfree
  file {place contents} hplace := by
    rcases h.entry place with hsame | ⟨hnone, -⟩ | ⟨-, file, -, -, hwritten⟩
    · exact ⟨contents, hsame.trans hplace⟩
    · rw [hplace] at hnone
      cases hnone
    · exact ⟨file.2, hwritten⟩

theorem trans (hfirst : GrowsBy directories files first earlier)
    (hlater : GrowsBy directories others earlier later) :
    GrowsBy directories (files ++ others) first later where
  workingDirectory := hlater.workingDirectory.trans hfirst.workingDirectory
  entry place := by
    have hkeeps := hlater.keeps
    rcases hlater.entry place with hsame | ⟨hnone, hmade, hpath⟩ |
      ⟨hfree, file, hfile, hwritten⟩
    · rcases hfirst.entry place with hstill | ⟨hnone, hmade, path, hpath, hplace⟩ |
        ⟨hfree, file, hfile, hplace, hwritten⟩
      · exact Or.inl (hsame.trans hstill)
      · exact Or.inr (Or.inl
          ⟨hnone, hsame.trans hmade, path, hpath, hkeeps.locate_ok hplace⟩)
      · exact Or.inr (Or.inr ⟨hfree, file, List.mem_append_left _ hfile,
          hkeeps.locate_ok hplace, hsame.trans hwritten⟩)
    · rcases hfirst.entry place with hstill | ⟨-, hmade', -⟩ | ⟨-, _, -, -, hwritten⟩
      · exact Or.inr (Or.inl ⟨hstill.symm.trans hnone, hmade, hpath⟩)
      · rw [hmade'] at hnone
        cases hnone
      · rw [hwritten] at hnone
        cases hnone
    · refine Or.inr (Or.inr ⟨?_, file, List.mem_append_right _ hfile, hwritten⟩)
      intro hdirectory
      exact hfree (hfirst.keeps.directory hdirectory)

/-- A file changes only if it is one of those that are written. -/
theorem entryAt?_eq_of_forall_ne (h : GrowsBy directories files earlier later) {place : Location}
    (hplace : (earlier.root.entryAt? place).isSome = true)
    (hfiles : ∀ file ∈ files, later.locate file.1 ≠ .ok place) :
    later.root.entryAt? place = earlier.root.entryAt? place := by
  rcases h.entry place with hsame | ⟨hnone, -⟩ | ⟨-, file, hfile, hwritten, -⟩
  · exact hsame
  · rw [hnone] at hplace
    cases hplace
  · exact absurd hwritten (hfiles file hfile)

end GrowsBy

theorem pieces_eq_concat (path : Path) :
    Text.pieces Path.slash path.bytes =
      (Text.pieces Path.slash path.bytes).dropLast ++
        [(Text.pieces Path.slash path.bytes).getLastD []] := by
  rw [List.getLastD_eq_getLast?, List.getLast?_eq_some_getLast (Text.pieces_ne_nil _ _),
    Option.getD_some, List.dropLast_concat_getLast]

theorem locateParent_eq (disk : Disk) (path : Path) :
    disk.locateParent path = (do
      accept path
      let place ← disk.follow path (Text.pieces Path.slash path.bytes).dropLast
      match disk.root.entryAt? place with
      | none => .error .notFound
      | some (.file _) => .error .notADirectory
      | some .directory =>
          if isTooLong nameLimit ((Text.pieces Path.slash path.bytes).getLastD []) then
            .error .nameTooLong
          else .ok (place, (Text.pieces Path.slash path.bytes).getLastD [])) := by
  rw [locateParent]
  congr 1
  funext _
  congr 1
  funext place
  rw [Node.entryAt?]
  cases disk.root.get? place with
  | none => rfl
  | some node => cases node <;> rfl

theorem locateParent_eq_ok {disk : Disk} {path : Path} {above : Location} {piece : Bytes}
    (h : disk.locateParent path = .ok (above, piece)) :
    accept path = .ok () ∧ piece = (Text.pieces Path.slash path.bytes).getLastD [] ∧
      disk.follow path (Text.pieces Path.slash path.bytes).dropLast = .ok above ∧
      disk.root.entryAt? above = some .directory ∧ isTooLong nameLimit piece = false := by
  rw [locateParent_eq] at h
  obtain ⟨_, haccept, h⟩ := bind_eq_ok h
  obtain ⟨place, hfollow, h⟩ := bind_eq_ok h
  split at h
  · cases h
  · cases h
  · next hentry =>
      split at h
      · cases h
      · next hlong =>
          cases h
          exact ⟨haccept, rfl, hfollow, hentry, (Bool.not_eq_true _).mp hlong⟩

theorem fileName?_of_locateParent {disk : Disk} {path : Path} {above : Location}
    {name : Name} (h : disk.locateParent path = .ok (above, name.bytes)) :
    path.fileName? = some name.bytes := by
  obtain ⟨-, hname, -⟩ := locateParent_eq_ok h
  apply Path.fileName?_of_pieces
  rw [hname]
  exact pieces_eq_concat path

/-- What stands where a path leads is found by that path. -/
theorem locate_of_locateParent {disk later : Disk} {path : Path} {above : Location}
    {name : Name} (hparent : disk.locateParent path = .ok (above, name.bytes))
    (hkeeps : Keeps disk later) (hentry : (later.root.entryAt? (above ++ [name])).isSome = true) :
    later.locate path = .ok (above ++ [name]) := by
  obtain ⟨haccept, hlast, hfollow, habove, hlong⟩ := locateParent_eq_ok hparent
  have hpieces := pieces_eq_concat path
  rw [← hlast] at hpieces
  rw [locate_eq_ok_iff]
  refine ⟨haccept, ?_, ?_⟩
  · rw [← Bool.not_eq_true, Path.isEmpty, List.isEmpty_iff]
    intro hempty
    rw [hempty] at hlast
    exact name.isName.ne_nil hlast
  · have hstill : later.follow path (Text.pieces Path.slash path.bytes).dropLast = .ok above := by
      rw [hkeeps.follow (by simp [hfollow]), hfollow]
    have henter : later.enter above name.bytes = .ok (above ++ [name]) := by
      rw [enter_eq, hkeeps.directory habove]
      simp [name.isSolid, name.isName.2.1, hlong, Name.ofPiece?_bytes, hentry]
    rw [follow] at hstill
    rw [follow, hpieces, List.foldlM_append, hstill]
    exact congrArg (· >>= pure) henter

/-- A leaf that is put where a path leads is found by that path, and changes nothing else. It may
take the place of a file if it is a file. -/
theorem put_leaf {disk : Disk} {path : Path} {above : Location} {name : Name} (new : Entry)
    (hparent : disk.locateParent path = .ok (above, name.bytes))
    (hfree : disk.root.entryAt? (above ++ [name]) ≠ some .directory)
    (hnew : disk.root.entryAt? (above ++ [name]) = none ∨ new ≠ .directory) :
    (∀ place, (disk.put (above ++ [name]) new).root.entryAt? place =
      if place = above ++ [name] then some new else disk.root.entryAt? place) ∧
    (disk.put (above ++ [name]) new).locate path = .ok (above ++ [name]) := by
  obtain ⟨-, -, -, habove, -⟩ := locateParent_eq_ok hparent
  have hentry := Node.entryAt?_put_leaf habove hfree new
  refine ⟨hentry, locate_of_locateParent hparent ⟨rfl, ?_, ?_⟩ ?_⟩
  · intro place hplace
    have hne : place ≠ above ++ [name] := by
      rintro rfl
      exact hfree hplace
    rw [put, hentry, if_neg hne, hplace]
  · intro place contents hplace
    rw [put, hentry]
    split
    · next heq =>
        subst heq
        rcases hnew with hnone | hfile
        · rw [hplace] at hnone
          cases hnone
        · cases new with
          | directory => exact absurd rfl hfile
          | file contents => exact ⟨contents, rfl⟩
    · exact ⟨contents, hplace⟩
  · rw [put, hentry, if_pos rfl]
    rfl

theorem isDirectory_eq_true_iff {disk : Disk} {path : Path} :
    disk.isDirectory path = true ↔
      ∃ place, disk.locate path = .ok place ∧ disk.root.entryAt? place = some .directory := by
  rw [isDirectory, node?]
  cases disk.locate path with
  | error fault => simp
  | ok place =>
      simp only [Node.entryAt?, Except.ok.injEq, exists_eq_left']
      cases disk.root.get? place with
      | none => simp
      | some node => cases node <;> simp [Node.isDirectory, Node.entry]

theorem Keeps.isDirectory {earlier later : Disk} (h : Keeps earlier later) {path : Path}
    (hpath : earlier.isDirectory path = true) : later.isDirectory path = true := by
  obtain ⟨place, hplace, hdirectory⟩ := isDirectory_eq_true_iff.mp hpath
  exact isDirectory_eq_true_iff.mpr ⟨place, h.locate_ok hplace, h.directory hdirectory⟩

/-- A directory is made where nothing was, and is then found by its path. -/
theorem growsBy_makeDirectory {disk made : Disk} {path : Path}
    (h : disk.makeDirectory path = .ok made) :
    GrowsBy (fun above => above = path ∧ above.fileName?.isSome = true) [] disk made ∧
      made.isDirectory path = true := by
  obtain ⟨⟨above, piece⟩, hparent, hmade⟩ := bind_eq_ok h
  simp only at hmade
  split at hmade
  · next name hname =>
      rw [Name.ofPiece?_eq_some_iff.mp hname] at hparent
      split at hmade
      · cases hmade
      · next hfree =>
          rw [Option.not_isSome_iff_eq_none] at hfree
          have hnone : disk.root.entryAt? (above ++ [name]) = none := by
            rw [Node.entryAt?, hfree]
            rfl
          obtain ⟨hentry, hlocate⟩ := put_leaf .directory hparent (by simp [hnone]) (Or.inl hnone)
          cases hmade
          refine ⟨⟨rfl, ?_⟩, isDirectory_eq_true_iff.mpr ⟨_, hlocate, ?_⟩⟩
          · intro place
            by_cases hplace : place = above ++ [name]
            · right
              left
              refine ⟨hplace ▸ hnone, ?_, path, ⟨rfl, ?_⟩, hplace ▸ hlocate⟩
              · exact (hentry place).trans (if_pos hplace)
              · rw [fileName?_of_locateParent hparent]
                rfl
            · exact Or.inl ((hentry place).trans (if_neg hplace))
          · exact (hentry _).trans (if_pos rfl)
  · cases hmade

theorem growsBy_ensureDirectory (disk : Disk) (path : Path) :
    GrowsBy (fun above => above = path ∧ above.fileName?.isSome = true) [] disk
      (disk.ensureDirectory path).2 := by
  rw [ensureDirectory]
  split
  · next made hmade => exact (growsBy_makeDirectory hmade).1
  · exact .refl _ _ _

theorem growsBy_ensureAll (disk : Disk) (paths : List Path) :
    GrowsBy (fun above => above ∈ paths ∧ above.fileName?.isSome = true) [] disk
      (disk.ensureAll paths).2 := by
  induction paths with
  | nil => exact .refl _ _ _
  | cons path above ih =>
      have hcons : ∀ other, other ∈ above ∧ other.fileName?.isSome = true →
          other ∈ path :: above ∧ other.fileName?.isSome = true :=
        fun _ h => ⟨List.mem_cons_of_mem _ h.1, h.2⟩
      have hself : ∀ other, other = path ∧ other.fileName?.isSome = true →
          other ∈ path :: above ∧ other.fileName?.isSome = true :=
        fun _ h => ⟨h.1 ▸ List.mem_cons_self, h.2⟩
      rw [ensureAll]
      split
      · exact .refl _ _ _
      · split
        · split
          · next made habove =>
              rw [habove] at ih
              exact (ih.mono hcons (List.Subset.refl _)).trans
                ((growsBy_ensureDirectory made path).mono hself (List.Subset.refl _))
          · next fault made habove =>
              rw [habove] at ih
              exact ih.mono hcons (List.Subset.refl _)
        · exact (growsBy_ensureDirectory disk path).mono hself (List.Subset.refl _)

/-- The directories that are made for a path are above it. -/
theorem growsBy_makeDirectories (disk : Disk) (path : Path) :
    GrowsBy (·.IsAncestor path) [] disk (disk.makeDirectories path.directory).2 :=
  (growsBy_ensureAll disk (ancestors path.directory)).mono
    (fun _ h => isAncestor_of_mem_ancestors_directory h.1 h.2) (List.Subset.refl _)

/-- A file is put where no directory is, and is then found by its path. -/
theorem growsBy_replaceFile {disk written : Disk} {path : Path} {contents : Contents}
    (h : disk.replaceFile path contents = .ok written) (directories : Path → Prop) :
    GrowsBy directories [(path, contents)] disk written ∧
      ∃ place, written.locate path = .ok place ∧
        written.root.entryAt? place = some (.file contents) := by
  rw [replaceFile] at h
  split at h
  · cases h
  · split at h
    · cases h
    · obtain ⟨⟨above, piece⟩, hparent, hwritten⟩ := bind_eq_ok h
      simp only at hwritten
      split at hwritten
      · next name hname =>
          rw [Name.ofPiece?_eq_some_iff.mp hname] at hparent
          split at hwritten
          · cases hwritten
          · next hdirectory =>
              have hfree : disk.root.entryAt? (above ++ [name]) ≠
                  some .directory := by
                intro hentry
                obtain ⟨entries, hget⟩ := Node.entryAt?_eq_directory_iff.mp hentry
                rw [hget] at hdirectory
                exact hdirectory rfl
              obtain ⟨hentry, hlocate⟩ := put_leaf (.file contents) hparent hfree
                (Or.inr nofun)
              cases hwritten
              refine ⟨⟨rfl, ?_⟩, _, hlocate, (hentry _).trans (if_pos rfl)⟩
              intro place
              by_cases hplace : place = above ++ [name]
              · right
                right
                exact ⟨hplace ▸ hfree, _, List.mem_singleton_self _, hplace ▸ hlocate,
                  (hentry place).trans (if_pos hplace)⟩
              · exact Or.inl ((hentry place).trans (if_neg hplace))
      · cases hwritten

theorem writeFile_eq_ok_iff {disk later : Disk} {path : Path} {contents : Contents} :
    disk.writeFile path contents = (.ok (), later) ↔
      ∃ made, disk.makeDirectories path.directory = (.ok (), made) ∧
        made.replaceFile path contents = .ok later := by
  rw [writeFile]
  rcases disk.makeDirectories path.directory with ⟨fault | done, made⟩
  · simp
  · cases hwritten : made.replaceFile path contents <;> simp [hwritten]

theorem writeFile_eq_error_iff {disk later : Disk} {path : Path} {contents : Contents}
    {fault : DiskFault} :
    disk.writeFile path contents = (.error fault, later) ↔
      disk.makeDirectories path.directory = (.error fault, later) ∨
        disk.makeDirectories path.directory = (.ok (), later) ∧
          later.replaceFile path contents = .error fault := by
  rw [writeFile]
  rcases disk.makeDirectories path.directory with ⟨found | done, made⟩
  · simp
  · dsimp only
    constructor
    · cases hwritten : made.replaceFile path contents with
      | ok written => exact nofun
      | error found =>
          rintro ⟨⟩
          exact Or.inr ⟨rfl, hwritten⟩
    · rintro (⟨⟨⟩⟩ | ⟨⟨⟩, hfailed⟩)
      rw [hfailed]

/-- A file that is written is found by its path. -/
theorem growsBy_writeFile_ok {disk later : Disk} {path : Path} {contents : Contents}
    (h : disk.writeFile path contents = (.ok (), later)) :
    GrowsBy (·.IsAncestor path) [(path, contents)] disk later ∧
      ∃ place, later.locate path = .ok place ∧
        later.root.entryAt? place = some (.file contents) := by
  obtain ⟨made, hdirectories, hwritten⟩ := writeFile_eq_ok_iff.mp h
  have hmade := growsBy_makeDirectories disk path
  rw [hdirectories] at hmade
  obtain ⟨hgrows, hfile⟩ := growsBy_replaceFile hwritten (·.IsAncestor path)
  exact ⟨hmade.trans hgrows, hfile⟩

/-- A write that fails leaves all files as they were. -/
theorem growsBy_writeFile_error {disk later : Disk} {path : Path} {contents : Contents}
    {fault : DiskFault} (h : disk.writeFile path contents = (.error fault, later)) :
    GrowsBy (·.IsAncestor path) [] disk later := by
  have hmade := growsBy_makeDirectories disk path
  rcases writeFile_eq_error_iff.mp h with hfailed | ⟨hdirectories, -⟩
  · rw [hfailed] at hmade
    exact hmade
  · rw [hdirectories] at hmade
    exact hmade

end FeatureCompiler.Disk
