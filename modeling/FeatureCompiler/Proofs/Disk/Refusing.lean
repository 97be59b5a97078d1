import FeatureCompiler.Proofs.Disk.Making

/-!
Directories that cannot be made. A directory is refused if nothing on the way to it is missing and
still it cannot be made; then it is refused for ever, and so is all that is below it. When making
the directories of a path fails, as many of them as can be made are there, and the lowest is refused
from then on. The reason can change only on a way that climbs: what was found to be a file by way of
a directory that had just been made is the next time found at once not to be a directory.
-/

namespace FeatureCompiler

/-- How a write that failed fails the next time: for the same reason, or if its path climbs, because
a file that was found at the end of a way is now found on it. -/
def DiskFault.Recurs (climbs : Prop) (first second : DiskFault) : Prop :=
  second = first ∨ first = .alreadyExists ∧ second = .notADirectory ∧ climbs

namespace Disk

/-- Whether a directory cannot be made although nothing on the way to it is missing. -/
structure Refuses (disk : Disk) (path : Path) (fault : DiskFault) : Prop where
  makeDirectory : disk.makeDirectory path = .error fault
  ne_notFound : fault ≠ .notFound
  isDirectory : disk.isDirectory path = false

namespace Refuses

variable {disk later : Disk} {path : Path} {fault : DiskFault} {names : List Bytes}
  {last : Bytes}

theorem ensureDirectory (h : disk.Refuses path fault) :
    disk.ensureDirectory path = (.error fault, disk) := by
  rw [Disk.ensureDirectory, h.makeDirectory]
  simp only [h.isDirectory, Bool.false_eq_true, if_false]

theorem ensureAll (h : disk.Refuses path fault) (hempty : path.isEmpty = false)
    (above : List Path) : disk.ensureAll (path :: above) = (.error fault, disk) := by
  rw [Disk.ensureAll, hempty, if_neg Bool.false_ne_true, h.makeDirectory]
  split
  · next hnone => exact absurd (Except.error.inj hnone) h.ne_notFound
  · exact h.ensureDirectory

/-- What is reached by a path that is refused: nothing, or a file. -/
theorem reach (h : disk.Refuses path fault) (hends : path.EndsIn names last)
    (haccept : accept path = .ok ()) :
    disk.reach (disk.startOf path) (names ++ [last]) = .error fault ∨
    fault = .alreadyExists ∧
      disk.reach (disk.startOf path) (names ++ [last]) = .error .notADirectory ∧
      ∃ name : Name, last = name.bytes ∧ ∃ place contents,
        disk.reach (disk.startOf path) names = .ok place ∧
          disk.root.entryAt? (place ++ [name]) = some (.file contents) := by
  have hmake := h.makeDirectory
  have hparent := hends.locateParent disk haccept
  have hnot : ∀ place, disk.reach (disk.startOf path) (names ++ [last]) ≠ .ok place := by
    intro place hplace
    have hdirectory := (hends.isDirectory_iff haccept).mpr ⟨place, hplace⟩
    rw [h.isDirectory] at hdirectory
    cases hdirectory
  rw [reach_concat] at hnot ⊢
  cases hreach : disk.reach (disk.startOf path) names with
  | error found =>
      rw [hreach] at hparent
      rw [makeDirectory_of_locateParent_error hparent] at hmake
      cases hmake
      exact Or.inl rfl
  | ok place =>
      have hplace := reach_eq_ok hreach
      rw [hreach] at hparent hnot
      simp only [bind, Except.bind] at hparent hnot ⊢
      cases hlong : isTooLong nameLimit last with
      | true =>
          rw [hlong, if_pos rfl] at hparent
          rw [makeDirectory_of_locateParent_error hparent] at hmake
          cases hmake
          have hup : last ≠ [Path.dot, Path.dot] := by
            rintro rfl
            exact absurd hlong (by decide)
          obtain ⟨name, rfl⟩ := hends.exists_name hup
          rw [enter_name name hplace, hlong]
          exact Or.inl rfl
      | false =>
          rw [hlong, if_neg Bool.false_ne_true] at hparent
          by_cases hup : last = [Path.dot, Path.dot]
          · -- two dots would lead to a directory
            subst hup
            exact absurd (enter_up hplace) (hnot _)
          · obtain ⟨name, rfl⟩ := hends.exists_name hup
            rw [makeDirectory_of_locateParent hparent, Name.ofPiece?_bytes] at hmake
            dsimp only at hmake
            split at hmake
            · next hthere =>
                cases hmake
                have henter : disk.enter place name.bytes = .ok (place ++ [name]) := by
                  rw [enter_name name hplace, hlong, hthere]
                  rfl
                rw [henter] at hnot ⊢
                obtain ⟨found, hfound⟩ := Option.isSome_iff_exists.mp hthere
                cases found with
                | directory => exact absurd (asDirectory_eq_ok_iff.mpr ⟨hfound, rfl⟩) (hnot _)
                | file contents =>
                    have hfile : disk.asDirectory (place ++ [name]) = .error .notADirectory := by
                      rw [asDirectory, hfound]
                    exact Or.inr ⟨rfl, hfile, name, rfl, place, contents, rfl, hfound⟩
            · cases hmake

/-- A directory that is refused is refused later, for the same reason. -/
theorem keeps (h : disk.Refuses path fault) (hends : path.EndsIn names last)
    (hkeeps : Keeps disk later) : later.Refuses path fault := by
  have hmake := h.makeDirectory
  have hparent : disk.locateParent path ≠ .error .notFound := by
    intro hnone
    rw [makeDirectory_of_locateParent_error hnone] at hmake
    exact h.ne_notFound (Except.error.inj hmake).symm
  have hparent_later := hkeeps.locateParent hparent
  refine ⟨?_, h.ne_notFound, ?_⟩
  · cases hfound : disk.locateParent path with
    | error found =>
        rw [makeDirectory_of_locateParent_error hfound] at hmake
        rw [makeDirectory_of_locateParent_error (hparent_later.trans hfound), hmake]
    | ok found =>
        obtain ⟨above, piece⟩ := found
        rw [makeDirectory_of_locateParent hfound] at hmake
        rw [makeDirectory_of_locateParent (hparent_later.trans hfound)]
        split
        · next name hname =>
            rw [hname] at hmake
            dsimp only at hmake
            split at hmake
            · next hthere =>
                cases hmake
                exact if_pos (hkeeps.isSome hthere)
            · cases hmake
        · next hname =>
            rw [hname] at hmake
            exact hmake
  · rw [← Bool.not_eq_true]
    intro hdirectory
    have haccept := (isDirectory_iff_reach.mp hdirectory).1
    obtain ⟨place, hplace⟩ := (hends.isDirectory_iff haccept).mp hdirectory
    rw [hkeeps.startOf] at hplace
    rcases h.reach hends haccept with hreach | ⟨-, hreach, -⟩
    · rw [hkeeps.reach (by rw [hreach]; exact fun he => h.ne_notFound (Except.error.inj he)),
        hreach] at hplace
      cases hplace
    · rw [hkeeps.reach (by rw [hreach]; exact nofun), hreach] at hplace
      cases hplace

end Refuses

/-- What is below a directory that is refused is refused as well. -/
theorem Refuses.below {disk : Disk} {above path : Path} {fault : DiskFault}
    {names : List Bytes} {middle last : Bytes} (h : disk.Refuses above fault)
    (hlead : above.lead = path.lead) (habove : above.EndsIn names middle)
    (hpath : path.EndsIn (names ++ [middle]) last) (haccept_above : accept above = .ok ())
    (haccept : accept path = .ok ()) :
    disk.Refuses path fault ∨
    fault = .alreadyExists ∧ disk.Refuses path .notADirectory ∧
      ∃ name : Name, middle = name.bytes ∧ ∃ place contents,
        disk.reach (disk.startOf path) names = .ok place ∧
          disk.root.entryAt? (place ++ [name]) = some (.file contents) := by
  have hrefuses : ∀ {second}, disk.reach (disk.startOf path) (names ++ [middle]) = .error second →
      second ≠ .notFound → disk.Refuses path second := by
    intro second hreach hfound
    refine ⟨?_, hfound, ?_⟩
    · apply makeDirectory_of_locateParent_error
      rw [hpath.locateParent disk haccept, hreach]
      rfl
    · rw [← Bool.not_eq_true, hpath.isDirectory_iff haccept, reach_concat, hreach]
      exact nofun
  have hreach := h.reach habove haccept_above
  rw [disk.startOf_congr hlead] at hreach
  rcases hreach with hreach | ⟨rfl, hreach, hfile⟩
  · exact Or.inl (hrefuses hreach h.ne_notFound)
  · exact Or.inr ⟨rfl, hrefuses hreach nofun, hfile⟩

/-- A file that stands at the end of some names was not missing before directories were made. So if
something was missing on the way to it, the way climbs. -/
theorem up_mem_of_file {disk later : Disk} {directories : Path → Prop} {start place : Location}
    {pieces : List Bytes} {last : Name} {contents : Contents}
    (hgrows : GrowsBy directories [] disk later)
    (hsolid : ∀ piece ∈ pieces, Path.isSolid piece = true ∧ Path.slash ∉ piece)
    (hmissing : disk.reach start (pieces ++ [last.bytes]) = .error .notFound)
    (hplace : later.reach start pieces = .ok place)
    (hfile : later.root.entryAt? (place ++ [last]) = some (.file contents)) :
    [Path.dot, Path.dot] ∈ pieces := by
  apply Decidable.byContradiction
  intro hup
  have hnames : ∀ piece ∈ pieces, Path.IsName piece := by
    intro piece hpiece
    refine ⟨(hsolid piece hpiece).1, ?_, (hsolid piece hpiece).2⟩
    rintro rfl
    exact hup hpiece
  obtain ⟨names, rfl⟩ := Name.exists_map_bytes hnames
  have hdown := eq_append_of_reach hplace
  have hbefore : disk.root.entryAt? (start ++ (names ++ [last])) = some (.file contents) := by
    rw [← List.append_assoc, ← hdown, ← hfile]
    rcases hgrows.entry (place ++ [last]) with hsame | ⟨-, hmade, -⟩ | ⟨-, _, hnil, -⟩
    · exact hsame.symm
    · cases hmade.symm.trans hfile
    · cases hnil
  apply reach_ne_notFound_of_file hbefore
  rw [List.map_append]
  exact hmissing

/-- The step from a directory that is refused to the next below it, for the pieces of a path. -/
theorem refuses_of_above {disk later : Disk} {directories : Path → Prop} {path target : Path}
    {fault second : DiskFault} {above init more rest : List Bytes} {middle piece : Bytes}
    (hgrows : GrowsBy directories [] disk later) (hlead : target.lead = path.lead)
    (htarget : target = Path.ofSegments path.lead (above ++ [piece]))
    (hends : target.EndsIn (above.filter Path.isSolid) piece)
    (hsegments : path.segments = above ++ rest) (habove : above = init ++ [middle] ++ more)
    (hmiddle : Path.isSolid middle = true) (hmore : more.filter Path.isSolid = [])
    (haccept : accept target = .ok ())
    (hmissing : disk.reach (disk.startOf target) (above.filter Path.isSolid) = .error .notFound)
    (hrefuses : later.Refuses (Path.ofSegments path.lead (init ++ [middle])) second)
    (hrecurs : DiskFault.Recurs ([Path.dot, Path.dot] ∈ init) fault second) :
    ∃ second, later.Refuses target second ∧
      DiskFault.Recurs ([Path.dot, Path.dot] ∈ above) fault second := by
  have hsolid : above.filter Path.isSolid = init.filter Path.isSolid ++ [middle] := by
    rw [habove, List.filter_append, hmore, List.append_nil, List.filter_append,
      List.filter_cons_of_pos hmiddle, List.filter_nil]
  have hclimbs : [Path.dot, Path.dot] ∈ init → [Path.dot, Path.dot] ∈ above := by
    intro h
    simp [habove, h]
  rw [habove, List.append_assoc] at hsegments
  obtain ⟨hlead_above, hends_above⟩ := endsIn_ofSegments hsegments hmiddle
  have haccept_above : accept (Path.ofSegments path.lead (init ++ [middle])) = .ok () := by
    refine accept_of_prefix ?_ haccept
    rw [htarget, habove, List.append_assoc (init ++ [middle])]
    exact Path.bytes_ofSegments_prefix _ _ _
  rw [hsolid] at hends hmissing
  rcases hrefuses.below (hlead_above.trans hlead.symm) hends_above hends haccept_above haccept with
    hsame | ⟨rfl, hfile_refuses, name, rfl, place, contents, hplace, hfile⟩
  · exact ⟨second, hsame, hrecurs.imp_right fun ⟨hfirst, hsecond, h⟩ =>
      ⟨hfirst, hsecond, hclimbs h⟩⟩
  · refine ⟨.notADirectory, hfile_refuses, Or.inr ⟨?_, rfl, ?_⟩⟩
    · rcases hrecurs with hsame | ⟨-, hother, -⟩
      · exact hsame.symm
      · cases hother
    · rw [hgrows.keeps.startOf] at hplace
      refine hclimbs (List.mem_filter.mp (up_mem_of_file hgrows ?_ hmissing hplace hfile)).1
      intro piece hpiece
      obtain ⟨hmem, hpiece_solid⟩ := List.mem_filter.mp hpiece
      have hsegment : piece ∈ path.segments := by simp [hsegments, hmem]
      exact ⟨hpiece_solid, Text.notMem_of_mem_pieces hsegment⟩

/-- Directories that cannot all be made: the lowest of them is refused from then on. -/
theorem exists_refuses_of_ensureAll {disk later : Disk} (hworking : disk.HasWorkingDirectory)
    {path : Path} {fault : DiskFault} {above rest : List Bytes}
    (hsegments : path.segments = above.reverse ++ rest)
    (h : disk.ensureAll (ancestorsOf path.lead above) = (.error fault, later)) :
    ∃ init last more tail second, above.reverse = init ++ [last] ++ more ∧
      Path.isSolid last = true ∧ more.filter Path.isSolid = [] ∧
      ancestorsOf path.lead above = Path.ofSegments path.lead (init ++ [last]) :: tail ∧
      later.Refuses (Path.ofSegments path.lead (init ++ [last])) second ∧
      DiskFault.Recurs ([Path.dot, Path.dot] ∈ init) fault second := by
  induction above generalizing rest fault later with
  | nil =>
      rw [ensureAll_ancestorsOf_nil hworking] at h
      cases h
  | cons piece above ih =>
      rw [List.reverse_cons] at hsegments
      cases hsolid : Path.isSolid piece with
      | false =>
          rw [ancestorsOf, if_neg (by simp [hsolid])] at h ⊢
          rw [List.append_assoc] at hsegments
          obtain ⟨init, last, more, tail, second, habove, hlast, hmore, hrest⟩ := ih hsegments h
          refine ⟨init, last, more ++ [piece], tail, second, ?_, hlast, ?_, hrest⟩
          · rw [List.reverse_cons, habove]
            simp only [List.append_assoc]
          · simp [hmore, hsolid]
      | true =>
          obtain ⟨hlead, hends⟩ := endsIn_ofSegments hsegments hsolid
          rw [ancestorsOf, if_pos hsolid, List.reverse_cons] at h ⊢
          -- it is enough to say why this directory is refused
          suffices hrefused : ∃ second,
              later.Refuses (Path.ofSegments path.lead (above.reverse ++ [piece])) second ∧
                DiskFault.Recurs ([Path.dot, Path.dot] ∈ above.reverse) fault second by
            obtain ⟨second, hrefuses, hrecurs⟩ := hrefused
            exact ⟨above.reverse, piece, [], _, second, by simp, hsolid, rfl, rfl, hrefuses,
              hrecurs⟩
          rw [ensureAll, hends.isEmpty_eq_false, if_neg Bool.false_ne_true] at h
          split at h
          · next hmissing =>
              obtain ⟨haccept, hreach⟩ := (makeDirectory_eq_notFound_iff hends).mp hmissing
              rw [List.append_assoc] at hsegments
              split at h
              · -- all that is above was made, so that nothing is missing now
                next made hmade =>
                  obtain ⟨rfl, hmake, hdirectory⟩ := ensureDirectory_eq_error h
                  refine ⟨fault, ⟨hmake, ?_, hdirectory⟩, Or.inl rfl⟩
                  rintro rfl
                  obtain ⟨place, hplace⟩ := reach_of_ensureAll hworking hsegments hmade
                  obtain ⟨-, hnone⟩ := (makeDirectory_eq_notFound_iff hends).mp hmake
                  rw [later.startOf_congr hlead, hplace] at hnone
                  cases hnone
              · -- what is above was refused, and this one with it
                next found made hfailed =>
                  cases h
                  obtain ⟨init, middle, more, tail, second, habove, hmiddle, hmore, -, hrefuses,
                    hrecurs⟩ := ih hsegments hfailed
                  have hgrows := growsBy_ensureAll disk (ancestorsOf path.lead above)
                  rw [hfailed] at hgrows
                  exact refuses_of_above hgrows hlead rfl hends hsegments habove hmiddle hmore
                    haccept hreach hrefuses hrecurs
          · next hother =>
              obtain ⟨rfl, hmake, hdirectory⟩ := ensureDirectory_eq_error h
              refine ⟨fault, ⟨hmake, ?_, hdirectory⟩, Or.inl rfl⟩
              rintro rfl
              exact hother hmake

end Disk

end FeatureCompiler
