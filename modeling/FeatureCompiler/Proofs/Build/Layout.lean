import FeatureCompiler.Build.Layout
import FeatureCompiler.Proofs.Disk.Tree
import FeatureCompiler.Proofs.Outcome
import FeatureCompiler.Proofs.Path.Extension

/-!
Where modules go. The output path of a feature file below the source directory has the components of
the output directory, then the directories of the file, then a component that its stem decides; so
no two files of a tree share an output path, however the paths are spelled.
-/

namespace FeatureCompiler

/-- The last component of an output path. The stem of a single dot leads one directory up. -/
def moduleComponent (stem : Bytes) : Path.Component :=
  if stem = [Path.dot] then .up else .name (stem ++ Text.bytes ".js")

theorem moduleComponent_inj {first second : Bytes}
    (h : moduleComponent first = moduleComponent second) : first = second := by
  unfold moduleComponent at h
  split at h
  · next hfirst =>
      split at h
      · next hsecond => rw [hfirst, hsecond]
      · cases h
  · split at h
    · cases h
    · exact List.append_cancel_right (Path.Component.name.inj h)

/-- The pieces of a path below a base end with the last name of the place. -/
theorem Path.segments_below_concat (base : Path) (above : Location) (name : Name) :
    ∃ init, (base.below (above ++ [name])).segments = init ++ [name.bytes] := by
  have hne : above ++ [name] ≠ [] := by simp
  obtain ⟨-, before, hsegments, -⟩ := exists_segments_join base (lead_ofPlace (above ++ [name]))
  refine ⟨before ++ above.map Name.bytes, ?_⟩
  rw [below_eq_join base hne, hsegments, segments_ofPlace hne, List.map_append,
    List.append_assoc]
  rfl

/-- The extension of a path below a base is that of the last name of the place. -/
theorem Path.extension?_below_concat (base : Path) (above : Location) (name : Name) :
    (base.below (above ++ [name])).extension? = (splitName name.bytes).2 := by
  obtain ⟨init, hsegments⟩ := segments_below_concat base above name
  rw [extension?, fileName?_of_segments hsegments name.isSolid, if_neg name.isName.2.1,
    Option.bind_some]

namespace BuildOptions

/-- Whether there is a feature file at a place below the source directory, by its name. -/
def IsSource (options : BuildOptions) (place : Location) : Prop :=
  place ≠ [] ∧ isFeatureFile (options.source.below place) = true

theorem IsSource.exists_stem {options : BuildOptions} {place : Location}
    (h : options.IsSource place) :
    ∃ above, ∃ name : Name, ∃ stem, place = above ++ [name] ∧ stem ≠ [] ∧
      name.bytes = stem ++ Path.dot :: Text.bytes "feature" := by
  obtain ⟨hne, hfeature⟩ := h
  have hconcat := List.dropLast_concat_getLast hne
  generalize place.dropLast = above, place.getLast hne = name at hconcat
  subst hconcat
  rw [isFeatureFile, Path.extension?_below_concat, decide_eq_true_eq] at hfeature
  obtain ⟨stem, hstem, hname, -⟩ := Path.exists_stem_of_splitName hfeature
  exact ⟨above, name, stem, rfl, hstem, hname⟩

/-- The module of a file below the source directory goes to the same place below the output
directory, with its own extension. -/
theorem outputPath_below (options : BuildOptions) (hsource : options.source.isEmpty = false)
    {place : Location} (hne : place ≠ []) :
    options.outputPath (options.source.below place) =
      (options.output.below place).withExtension "js" := by
  rw [outputPath, Path.stripBase?_below hsource hne, Path.below_eq_join options.output hne]

theorem components_outputPath (options : BuildOptions) (hsource : options.source.isEmpty = false)
    (above : Location) {name : Name} {stem : Bytes} (hstem : stem ≠ [])
    (hname : name.bytes = stem ++ Path.dot :: Text.bytes "feature") :
    (options.outputPath (options.source.below (above ++ [name]))).components =
      options.output.components ++ above.map (fun name => .name name.bytes) ++
        [moduleComponent stem] := by
  obtain ⟨init, hsegments⟩ := Path.segments_below_concat options.output above name
  rw [hname] at hsegments
  rw [outputPath_below options hsource (by simp),
    Path.components_withExtension hsegments hstem (by decide) (by decide) (by decide),
    Path.components_below, List.map_append, List.map_singleton,
    ← List.append_assoc, List.dropLast_concat]
  rfl

/-- Different feature files below the source directory have different output paths. -/
theorem eq_of_same_outputPath {options : BuildOptions} (hsource : options.source.isEmpty = false)
    {first second : Location} (hfirst : options.IsSource first) (hsecond : options.IsSource second)
    (hsame : (options.outputPath (options.source.below first)).same
      (options.outputPath (options.source.below second)) = true) : first = second := by
  obtain ⟨above, name, stem, rfl, hstem, hname⟩ := hfirst.exists_stem
  obtain ⟨above', name', stem', rfl, hstem', hname'⟩ := hsecond.exists_stem
  rw [Path.same, decide_eq_true_eq,
    components_outputPath options hsource above hstem hname,
    components_outputPath options hsource above' hstem' hname', List.append_assoc,
    List.append_assoc] at hsame
  obtain ⟨habove, hlast⟩ := List.append_inj' (List.append_cancel_left hsame) rfl
  have habove_eq : above = above' := by
    refine (List.map_inj_right ?_).mp habove
    intro a b h
    exact Name.ext (Path.Component.name.inj h)
  have hstem_eq : stem = stem' := moduleComponent_inj (List.singleton_inj.mp hlast)
  have hname_eq : name = name' := by
    apply Name.ext
    rw [hname, hname', hstem_eq]
  rw [habove_eq, hname_eq]

end BuildOptions

namespace Disk

theorem isEmpty_of_locate {disk : Disk} {path : Path} {place : Location}
    (h : disk.locate path = .ok place) : path.isEmpty = false := by
  obtain ⟨-, -, hlocated⟩ := bind_eq_ok h
  cases hempty : path.isEmpty with
  | false => rfl
  | true =>
      rw [hempty, if_pos rfl] at hlocated
      cases hlocated

/-- What a path leads to is part of the tree, and no empty path leads anywhere. -/
theorem exists_get?_of_node? {disk : Disk} {path : Path} {node : Node}
    (h : disk.node? path = some node) :
    path.isEmpty = false ∧ ∃ place, disk.root.get? place = some node := by
  rw [node?] at h
  split at h
  · next place hplace => exact ⟨isEmpty_of_locate hplace, place, h⟩
  · cases h

/-- The sources of a build go to different output paths. -/
theorem pairwise_outputPath_of_discover {disk : Disk} {options : BuildOptions}
    {sources : List Path}
    (hsources : disk.discover options.source = .ok sources) :
    sources.Pairwise fun first second =>
      (options.outputPath first).same (options.outputPath second) = false := by
  rw [discover] at hsources
  split at hsources
  · cases hsources
  · next node hnode =>
      split at hsources
      · cases hsources
      · cases hsources
        obtain ⟨hsource, place, hget⟩ := exists_get?_of_node? hnode
        have hwellFormed : node.WellFormed := disk.wellFormed.get? hget
        rw [List.pairwise_filter, List.pairwise_map]
        cases node with
        | file contents => exact List.pairwise_singleton _ _
        | directory entries =>
            refine List.Pairwise.imp_of_mem ?_ hwellFormed.files_nodup
            intro first second hfirst hsecond hne hfirst_feature hsecond_feature
            rw [← Bool.not_eq_true]
            intro hsame
            exact hne (BuildOptions.eq_of_same_outputPath hsource
              ⟨Node.ne_nil_of_mem_files hfirst, hfirst_feature⟩
              ⟨Node.ne_nil_of_mem_files hsecond, hsecond_feature⟩ hsame)

end Disk

end FeatureCompiler
