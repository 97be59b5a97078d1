import FeatureCompiler.Proofs.Disk.Refusing

/-!
Writing the same file again. A write that succeeded succeeds again and changes nothing, as long as
the file is still there. A write that failed fails again and changes nothing, whatever was written
in between.
-/

namespace FeatureCompiler

/-- Whether nothing follows the file name of a path. -/
def Path.EndsPlainly (path : Path) : Prop :=
  path.fileName? = none ∨ Path.isSolid ((Text.pieces Path.slash path.bytes).getLastD []) = true

theorem Path.up_mem_components {path : Path} (h : [dot, dot] ∈ path.segments) :
    .up ∈ path.components := by
  have hsolid : [dot, dot] ∈ path.segments.filter isSolid :=
    List.mem_filter.mpr ⟨h, by decide⟩
  exact List.mem_append_right _ (List.mem_map.mpr ⟨_, hsolid, rfl⟩)

namespace Disk

theorem makeDirectories_again {disk made later : Disk} {path : Path}
    (h : disk.makeDirectories path = (.ok (), made)) (hkeeps : Keeps made later) :
    later.makeDirectories path = (.ok (), later) := by
  rw [makeDirectories] at h ⊢
  exact ensureAll_again h hkeeps

/-- Directories that could not all be made cannot be made later, and nothing is made. -/
theorem makeDirectories_again_of_error {disk made later : Disk}
    (hworking : disk.HasWorkingDirectory) {path : Path} {fault : DiskFault}
    (h : disk.makeDirectories path = (.error fault, made)) (hkeeps : Keeps made later) :
    ∃ second, later.makeDirectories path = (.error second, later) ∧
      DiskFault.Recurs (.up ∈ path.components) fault second := by
  have hsegments : path.segments = path.segments.reverse.reverse ++ [] := by
    rw [List.reverse_reverse, List.append_nil]
  obtain ⟨init, last, more, tail, second, habove, hlast, -, hancestors, hrefuses, hrecurs⟩ :=
    exists_refuses_of_ensureAll hworking hsegments h
  rw [List.reverse_reverse] at habove
  obtain ⟨-, hends⟩ := endsIn_ofSegments habove hlast
  refine ⟨second, ?_, ?_⟩
  · rw [makeDirectories, ancestors, hancestors]
    exact (hrefuses.keeps hends hkeeps).ensureAll hends.isEmpty_eq_false tail
  · refine hrecurs.imp_right fun ⟨hfirst, hsecond, hclimbs⟩ => ⟨hfirst, hsecond, ?_⟩
    apply Path.up_mem_components
    rw [habove]
    simp [hclimbs]

/-- What putting a file comes to once its parent is known. -/
theorem replaceFile_of_locateParent {disk : Disk} {path : Path} {contents : Contents}
    {above : Location} {piece : Bytes} (hzero : holdsZero path = false)
    (hempty : path.isEmpty = false) (h : disk.locateParent path = .ok (above, piece)) :
    disk.replaceFile path contents =
      match Name.ofPiece? piece with
      | some name =>
          if disk.root.entryAt? (above ++ [name]) = some .directory then .error .isADirectory
          else .ok (disk.put (above ++ [name]) (.file contents))
      | none => .error .busy := by
  rw [replaceFile, hzero, if_neg Bool.false_ne_true, hempty, if_neg Bool.false_ne_true, h]
  simp only [bind, Except.bind]
  cases Name.ofPiece? piece with
  | none => rfl
  | some name =>
      dsimp only
      rw [Node.entryAt?]
      cases disk.root.get? (above ++ [name]) with
      | none => rfl
      | some node => cases node <;> rfl

/-- A file that cannot be put where nothing is missing cannot be put later. -/
theorem replaceFile_again_of_error {disk later : Disk} {path : Path} {contents : Contents}
    {fault : DiskFault} (h : disk.replaceFile path contents = .error fault)
    (hparent : disk.locateParent path ≠ .error .notFound) (hkeeps : Keeps disk later) :
    later.replaceFile path contents = .error fault := by
  cases hzero : holdsZero path with
  | true =>
      rw [replaceFile, hzero, if_pos rfl] at h ⊢
      exact h
  | false =>
      cases hempty : path.isEmpty with
      | true =>
          rw [replaceFile, hzero, if_neg Bool.false_ne_true, hempty, if_pos rfl] at h ⊢
          exact h
      | false =>
          have hlater := hkeeps.locateParent hparent
          cases hfound : disk.locateParent path with
          | error found =>
              rw [hfound] at hlater
              rw [replaceFile, hzero, if_neg Bool.false_ne_true, hempty,
                if_neg Bool.false_ne_true, hfound] at h
              rw [replaceFile, hzero, if_neg Bool.false_ne_true, hempty,
                if_neg Bool.false_ne_true, hlater]
              cases h
              rfl
          | ok found =>
              obtain ⟨above, piece⟩ := found
              rw [replaceFile_of_locateParent hzero hempty hfound] at h
              rw [replaceFile_of_locateParent hzero hempty (hlater.trans hfound)]
              cases hname : Name.ofPiece? piece with
              | none =>
                  rw [hname] at h
                  exact h
              | some name =>
                  rw [hname] at h
                  dsimp only at h ⊢
                  split at h
                  · next hdirectory =>
                      rw [if_pos (hkeeps.directory hdirectory)]
                      exact h
                  · cases h

theorem replaceFile_eq_ok {disk made : Disk} {path : Path} {contents : Contents}
    (h : disk.replaceFile path contents = .ok made) :
    holdsZero path = false ∧ path.isEmpty = false ∧
      ∃ above, ∃ name : Name, disk.locateParent path = .ok (above, name.bytes) ∧
        disk.root.entryAt? (above ++ [name]) ≠ some .directory ∧
        made = disk.put (above ++ [name]) (.file contents) := by
  cases hzero : holdsZero path with
  | true =>
      rw [replaceFile, hzero] at h
      cases h
  | false =>
      cases hempty : path.isEmpty with
      | true =>
          rw [replaceFile, hzero, hempty] at h
          cases h
      | false =>
          refine ⟨rfl, rfl, ?_⟩
          cases hparent : disk.locateParent path with
          | error fault =>
              rw [replaceFile, hzero, hempty, hparent] at h
              cases h
          | ok found =>
              obtain ⟨above, piece⟩ := found
              rw [replaceFile_of_locateParent hzero hempty hparent] at h
              split at h
              · next name hname =>
                  split at h
                  · cases h
                  · next hfree =>
                      cases h
                      obtain rfl := Name.ofPiece?_eq_some_iff.mp hname
                      exact ⟨above, name, rfl, hfree, rfl⟩
              · cases h

theorem put_of_entryAt? {disk : Disk} {place : Location} {contents : Contents}
    (h : disk.root.entryAt? place = some (.file contents)) :
    disk.put place (.file contents) = disk := by
  apply Disk.ext
  · exact disk.wellFormed.put_of_get? (Node.entryAt?_eq_file_iff.mp h)
  · rfl

/-- A file that was put and is still there is put again without any change. -/
theorem replaceFile_again {disk made later : Disk} {path : Path} {contents : Contents}
    (h : disk.replaceFile path contents = .ok made) (hkeeps : Keeps made later)
    {place : Location} (hplace : later.locate path = .ok place)
    (hentry : later.root.entryAt? place = some (.file contents)) :
    later.replaceFile path contents = .ok later := by
  have hgrows := (growsBy_replaceFile h fun _ => False).1
  obtain ⟨hzero, hempty, above, name, hparent, hfree, rfl⟩ := replaceFile_eq_ok h
  obtain ⟨-, hlocate⟩ := put_leaf (.file contents) hparent hfree (Or.inr nofun)
  obtain rfl : above ++ [name] = place :=
    Except.ok.inj ((hkeeps.locate_ok hlocate).symm.trans hplace)
  have hparent_later : later.locateParent path = .ok (above, name.bytes) := by
    rw [(hgrows.keeps.trans hkeeps).locateParent (by rw [hparent]; exact nofun), hparent]
  rw [replaceFile_of_locateParent hzero hempty hparent_later, Name.ofPiece?_bytes]
  dsimp only
  rw [hentry, if_neg nofun, put_of_entryAt? hentry]

/-- A file that was written and is still there is written again without any change. -/
theorem writeFile_again {disk made later : Disk} {path : Path} {contents : Contents}
    (h : disk.writeFile path contents = (.ok (), made)) (hkeeps : Keeps made later)
    {place : Location} (hplace : later.locate path = .ok place)
    (hentry : later.root.entryAt? place = some (.file contents)) :
    later.writeFile path contents = (.ok (), later) := by
  obtain ⟨above, hmade, hwritten⟩ := writeFile_eq_ok_iff.mp h
  have hgrows := (growsBy_replaceFile hwritten fun _ => False).1
  exact writeFile_eq_ok_iff.mpr ⟨later, makeDirectories_again hmade (hgrows.keeps.trans hkeeps),
    replaceFile_again hwritten hkeeps hplace hentry⟩

/-- Once the directory of a path is made, it can be reached from the path. -/
theorem reach_dropLast_of_makeDirectories {disk made : Disk}
    (hworking : disk.HasWorkingDirectory) {path : Path}
    (h : disk.makeDirectories path.directory = (.ok (), made)) :
    ∃ place, made.reach (made.startOf path) (path.segments.filter Path.isSolid).dropLast =
      .ok place := by
  have hgrows := growsBy_ensureAll disk (ancestors path.directory)
  rw [← makeDirectories, h] at hgrows
  rcases Path.directory_cases path with ⟨-, hnone⟩ | ⟨hlead, init, last, hpath, hdirectory⟩
  · rw [hnone]
    exact ⟨_, reach_startOf (hworking.keeps hgrows.keeps) path⟩
  · have hsegments : path.directory.segments =
        path.directory.segments.reverse.reverse ++ [] := by
      rw [List.reverse_reverse, List.append_nil]
    have hreach := reach_of_ensureAll hworking hsegments h
    rw [List.reverse_reverse, hdirectory, made.startOf_congr hlead] at hreach
    rw [hpath, List.dropLast_concat]
    exact hreach

theorem locateParent_ne_notFound {disk made : Disk} (hworking : disk.HasWorkingDirectory)
    {path : Path} (hpath : path.EndsPlainly)
    (h : disk.makeDirectories path.directory = (.ok (), made)) :
    made.locateParent path ≠ .error .notFound := by
  obtain ⟨place, hreach⟩ := reach_dropLast_of_makeDirectories hworking h
  have hpieces := Path.filter_isSolid_pieces path
  rw [pieces_eq_concat, List.filter_append] at hpieces
  rw [Path.EndsPlainly] at hpath
  rw [locateParent_eq_reach]
  generalize (Text.pieces Path.slash path.bytes).getLastD [] = last at *
  generalize (Text.pieces Path.slash path.bytes).dropLast.filter Path.isSolid = names at *
  have hnames : ∃ place, made.reach (made.startOf path) names = .ok place := by
    cases hsolid : Path.isSolid last with
    | true =>
        rw [List.filter_cons_of_pos hsolid, List.filter_nil] at hpieces
        rw [← hpieces, List.dropLast_concat] at hreach
        exact ⟨place, hreach⟩
    | false =>
        rw [List.filter_cons_of_neg (by simp [hsolid]), List.filter_nil,
          List.append_nil] at hpieces
        rw [hsolid] at hpath
        have hname := hpath.resolve_right Bool.false_ne_true
        rw [Path.fileName?, ← hpieces] at hname
        rw [← hpieces] at hreach
        rcases List.eq_nil_or_concat names with rfl | ⟨init, up, hconcat⟩
        · exact ⟨place, hreach⟩
        · rw [List.concat_eq_append] at hconcat
          subst hconcat
          rw [List.getLast?_concat] at hname
          simp only at hname
          split at hname
          · next hup =>
              rw [List.dropLast_concat] at hreach
              rw [hup]
              exact ⟨_, reach_concat_up hreach⟩
          · cases hname
  obtain ⟨found, hfound⟩ := hnames
  cases haccept : accept path with
  | error fault =>
      intro hnone
      cases hnone
      exact accept_ne_notFound path haccept
  | ok done =>
      rw [hfound]
      simp only [bind, Except.bind]
      split <;> simp

/-- A file that could not be written cannot be written later, and nothing is made. -/
theorem writeFile_again_of_error {disk made later : Disk} (hworking : disk.HasWorkingDirectory)
    {path : Path} (hpath : path.EndsPlainly) {contents : Contents} {fault : DiskFault}
    (h : disk.writeFile path contents = (.error fault, made)) (hkeeps : Keeps made later) :
    ∃ second, later.writeFile path contents = (.error second, later) ∧
      DiskFault.Recurs (.up ∈ path.directory.components) fault second := by
  rcases writeFile_eq_error_iff.mp h with hfailed | ⟨hmade, hfailed⟩
  · obtain ⟨second, hsecond, hrecurs⟩ := makeDirectories_again_of_error hworking hfailed hkeeps
    exact ⟨second, writeFile_eq_error_iff.mpr (Or.inl hsecond), hrecurs⟩
  · have hparent := locateParent_ne_notFound hworking hpath hmade
    exact ⟨fault, writeFile_eq_error_iff.mpr (Or.inr ⟨makeDirectories_again hmade hkeeps,
      replaceFile_again_of_error hfailed hparent hkeeps⟩), Or.inl rfl⟩

end Disk

end FeatureCompiler
