import FeatureCompiler.Proofs.Build.Layout
import FeatureCompiler.Proofs.Disk.Listing
import FeatureCompiler.Proofs.Disk.Reaching

/-!
Where the sources and the modules of a build are on a disk. A source that was discovered is not
missing; a module never takes the place of a source, because its name has another extension; and the
modules of two sources never take the same place, however the output directory is spelled.
-/

namespace FeatureCompiler

namespace Path

theorem stem_prefix_splitName (name : Bytes) : (splitName name).1 <+: name := by
  rw [splitName]
  split
  · next stem extension hcut =>
      split
      · exact List.prefix_rfl
      · rw [(eq_append_of_cutAtLastDot? hcut).1]
        exact List.prefix_append _ _
  · exact List.prefix_rfl

theorem splitName_stem_ne_nil {name : Bytes} (hname : name ≠ []) : (splitName name).1 ≠ [] := by
  rw [splitName]
  split
  · split
    · exact hname
    · next hstem => exact hstem
  · exact hname

/-- The pieces of a path that has a file name end in it, but for what does not count. -/
theorem exists_trimRight_of_fileName? {path : Path} {name : Bytes}
    (h : path.fileName? = some name) :
    ∃ init rest, trimRight path.segments = init ++ [name] ∧
      path.segments = init ++ [name] ++ rest ∧ isSolid name = true ∧ Path.slash ∉ name := by
  obtain ⟨rest, hrest, hblank⟩ := exists_trimRight_append path.segments
  rw [fileName?, hrest, List.filter_append, hblank, List.append_nil] at h
  rcases List.eq_nil_or_concat (trimRight path.segments) with hnil | ⟨init, last, hconcat⟩
  · rw [hnil] at h
    cases h
  · rw [List.concat_eq_append] at hconcat
    have hlast := isSolid_of_trimRight hconcat
    rw [hconcat, List.filter_append, List.filter_cons_of_pos hlast, List.filter_nil,
      List.getLast?_concat] at h
    simp only at h
    split at h
    · cases h
    · cases h
      have hmem : name ∈ path.segments := by
        rw [hrest, hconcat]
        simp
      exact ⟨init, rest, hconcat, hconcat ▸ hrest, hlast, Text.notMem_of_mem_pieces hmem⟩

/-- A path with a new extension ends in it, if it has a file name at all. -/
theorem exists_segments_setExtension {path : Path} {extension : Bytes}
    (hslash : Path.slash ∉ extension) {old : Bytes} (hold : path.fileName? = some old) :
    ∃ init stem, (path.setExtension extension).segments =
        init ++ [stem ++ Path.dot :: extension] ∧
      isSolid (stem ++ Path.dot :: extension) = true := by
  obtain ⟨init, rest, htrim, hsegments, hsolid, hfree⟩ := exists_trimRight_of_fileName? hold
  have hold_ne : old ≠ [] := by
    rintro rfl
    contradiction
  have hstem := splitName_stem_ne_nil hold_ne
  have hstem_free : Path.slash ∉ (splitName old).1 := fun hmem =>
    hfree ((stem_prefix_splitName old).subset hmem)
  have hnew := isSolid_dotted hstem extension
  obtain ⟨hlead, hpieces⟩ := segments_ofSegments hsegments (by simp)
  have hnew_free : Path.slash ∉ (splitName old).1 ++ Path.dot :: extension := by
    simp [hstem_free, hslash]
  obtain ⟨-, hend⟩ := segments_ofSegments_concat hpieces hsolid hnew hnew_free
  rw [hlead] at hend
  have htext : path.setExtension extension =
      ofSegments path.lead (init ++ [(splitName old).1 ++ Path.dot :: extension]) := by
    apply Path.ext
    rw [setExtension, hold]
    simp only
    rw [bytes_ofSegments_concat_append, htrim, List.dropLast_concat]
  rw [htext]
  exact ⟨init, _, hend, hnew⟩

theorem setExtension_of_fileName?_none {path : Path} (extension : Bytes)
    (h : path.fileName? = none) : path.setExtension extension = path := by
  rw [setExtension, h]

/-- A file name with a new extension ends in it. -/
theorem exists_stem_of_fileName?_setExtension {path : Path} {extension : Bytes}
    (hslash : Path.slash ∉ extension) {name : Bytes}
    (h : (path.setExtension extension).fileName? = some name) :
    ∃ stem, name = stem ++ Path.dot :: extension := by
  cases hold : path.fileName? with
  | none =>
      rw [setExtension_of_fileName?_none extension hold, hold] at h
      cases h
  | some old =>
      obtain ⟨init, stem, hsegments, hsolid⟩ := exists_segments_setExtension hslash hold
      rw [fileName?_of_segments hsegments hsolid] at h
      split at h
      · cases h
      · exact ⟨stem, (Option.some.inj h).symm⟩

end Path

namespace Disk

/-- A path that leads to a file has a file name. -/
theorem isSome_fileName?_of_file {disk : Disk} {path : Path} {place : Location}
    {contents : Contents} (hlocate : disk.locate path = .ok place)
    (hfile : disk.root.entryAt? place = some (.file contents)) :
    path.fileName?.isSome = true := by
  obtain ⟨-, -, hfollow⟩ := locate_eq_ok_iff.mp hlocate
  have hpieces := pieces_eq_concat path
  rw [follow, hpieces, List.foldlM_append] at hfollow
  obtain ⟨above, -, hlast⟩ := bind_eq_ok hfollow
  obtain ⟨next, henter, hdone⟩ := bind_eq_ok hlast
  cases hdone
  by_cases hpiece : Path.IsName ((Text.pieces Path.slash path.bytes).getLastD [])
  · rw [@Path.fileName?_of_pieces path _ ⟨_, hpiece⟩ hpieces]
    rfl
  · rw [isDirectory_of_enter henter hpiece] at hfile
    cases hfile

/-- A path with a file name leads to a place of that name. -/
theorem exists_place_of_fileName? {disk : Disk} {path : Path} {place : Location}
    {name : Name} (hlocate : disk.locate path = .ok place)
    (hname : path.fileName? = some name.bytes) : ∃ above, place = above ++ [name] := by
  obtain ⟨init, hinit⟩ := Path.exists_components_of_fileName? hname
  refine ⟨init.foldl Path.Component.step disk.workingDirectory, ?_⟩
  rw [← placeFrom_of_locate hlocate, Path.placeFrom, hinit, List.foldl_append]
  exact Path.Component.step_name _ name

theorem bytes_ne_nil_of_locate {disk : Disk} {path : Path} {place : Location}
    (h : disk.locate path = .ok place) : path.bytes ≠ [] := by
  intro hnil
  have hempty := isEmpty_of_locate h
  rw [Path.isEmpty, hnil] at hempty
  cases hempty

/-- A path below another one is followed from where that one leads. -/
theorem follow_join {disk : Disk} {base path : Path} {place : Location}
    (hpath : path.lead = .none) (hbase : disk.locate base = .ok place) :
    disk.follow (base.join path) (Text.pieces Path.slash (base.join path).bytes) =
      (Text.pieces Path.slash path.bytes).foldlM disk.enter place := by
  obtain ⟨-, -, hfollow⟩ := locate_eq_ok_iff.mp hbase
  have hstart : (base.join path).isAbsolute = base.isAbsolute := by
    rw [Path.isAbsolute, Path.isAbsolute, (Path.exists_segments_join base hpath).1]
  have hne := bytes_ne_nil_of_locate hbase
  rw [follow] at hfollow
  rw [follow, hstart, Path.bytes_join hpath, Path.front]
  generalize (if base.isAbsolute then [] else disk.workingDirectory : Location) = start
    at hfollow ⊢
  split
  · next hslash =>
      obtain ⟨bytes, hbytes⟩ := List.getLast?_eq_some_iff.mp (hslash.resolve_left hne)
      rw [hbytes, Text.pieces_append, List.foldlM_append] at hfollow
      obtain ⟨before, hbefore, hlast⟩ := bind_eq_ok hfollow
      obtain ⟨next, henter, hdone⟩ := bind_eq_ok hlast
      cases hdone
      obtain ⟨-, -, rfl⟩ := enter_eq_ok henter
      rw [hbytes, List.append_assoc, List.singleton_append, Text.pieces_append,
        List.foldlM_append, hbefore]
      rfl
  · rw [List.append_assoc, List.singleton_append, Text.pieces_append, List.foldlM_append, hfollow]
    rfl

/-- A file below a path is not missing, though its own path may be too long. -/
theorem locate_below_ne_notFound {disk : Disk} {source : Path} {start place : Location}
    (hsource : disk.locate source = .ok start)
    (hentry : (disk.root.entryAt? (start ++ place)).isSome = true) :
    disk.locate (source.below place) ≠ .error .notFound := by
  by_cases hnil : place = []
  · subst hnil
    change disk.locate source ≠ .error .notFound
    rw [hsource]
    exact nofun
  · have hlead := Path.lead_ofPlace place
    rw [Path.below_eq_join source hnil, locate]
    have hnames : Text.pieces Path.slash (Path.ofPlace place).bytes = place.map Name.bytes := by
      rw [← Path.segments_of_lead_none hlead, Path.segments_ofPlace hnil]
    have hfollow := follow_join hlead hsource
    rw [hnames] at hfollow
    intro herror
    cases haccept : accept (source.join (Path.ofPlace place)) with
    | error fault =>
        rw [haccept] at herror
        cases herror
        exact accept_ne_notFound _ haccept
    | ok done =>
        have hempty : (source.join (Path.ofPlace place)).isEmpty = false := by
          rw [← Bool.not_eq_true, Path.isEmpty, List.isEmpty_iff, Path.bytes_join hlead, Path.front]
          split <;> simp [bytes_ne_nil_of_locate hsource]
        rw [haccept, hempty] at herror
        simp only [bind, Except.bind, Bool.false_eq_true, if_false] at herror
        rcases foldlM_enter_place hentry with hfound | hlong
        · rw [hfollow, hfound] at herror
          cases herror
        · rw [hfollow, hlong] at herror
          cases herror

theorem exists_locate_of_node? {disk : Disk} {path : Path} {node : Node}
    (h : disk.node? path = some node) :
    ∃ place, disk.locate path = .ok place ∧ disk.root.get? place = some node := by
  rw [node?] at h
  split at h
  · next place hplace => exact ⟨place, hplace, h⟩
  · cases h

/-- The sources of a build are the feature files at or below its source directory. -/
theorem discover_eq_ok {disk : Disk} {source : Path} {sources : List Path}
    (h : disk.discover source = .ok sources) :
    ∃ start node, disk.locate source = .ok start ∧ disk.root.get? start = some node ∧
      unreadableDirectory? node source = none ∧
      sources = (node.files.map source.below).filter isFeatureFile := by
  rw [discover] at h
  split at h
  · cases h
  · next node hnode =>
      obtain ⟨start, hstart, hget⟩ := exists_locate_of_node? hnode
      split at h
      · cases h
      · next hreadable =>
          cases h
          exact ⟨start, node, hstart, hget, hreadable, rfl⟩

/-- A source of a build is not missing. -/
theorem locate_ne_notFound_of_discover {disk : Disk}
    {source : Path} {sources : List Path} (hsources : disk.discover source = .ok sources)
    {file : Path} (hfile : file ∈ sources) :
    isFeatureFile file = true ∧ disk.locate file ≠ .error .notFound := by
  obtain ⟨start, node, hstart, hget, -, rfl⟩ := discover_eq_ok hsources
  obtain ⟨hmapped, hfeature⟩ := List.mem_filter.mp hfile
  obtain ⟨place, hplace, rfl⟩ := List.mem_map.mp hmapped
  have hnode : node.WellFormed := disk.wellFormed.get? hget
  refine ⟨hfeature, locate_below_ne_notFound hstart ?_⟩
  obtain ⟨contents, hcontents⟩ := hnode.mem_files_iff.mp hplace
  rw [Node.entryAt?_append, hget, Option.bind_some, hcontents]
  rfl

end Disk

namespace BuildOptions

theorem exists_stem_of_isFeatureFile {file : Path} (h : isFeatureFile file = true) :
    ∃ stem, file.fileName? = some (stem ++ Path.dot :: Text.bytes "feature") := by
  rw [isFeatureFile, decide_eq_true_eq, Path.extension?] at h
  obtain ⟨name, hname, hsplit⟩ := Option.bind_eq_some_iff.mp h
  obtain ⟨stem, -, rfl, -⟩ := Path.exists_stem_of_splitName hsplit
  exact ⟨stem, hname⟩

theorem exists_stem_of_outputPath {options : BuildOptions} {file : Path} {name : Bytes}
    (h : (options.outputPath file).fileName? = some name) :
    ∃ stem, name = stem ++ Path.dot :: Text.bytes "js" := by
  rw [outputPath, Path.withExtension] at h
  exact Path.exists_stem_of_fileName?_setExtension (by decide) h

/-- Whether a place has the name of a feature file. -/
def IsFeaturePlace (place : Location) : Prop :=
  ∃ above, ∃ name : Name, ∃ stem, place = above ++ [name] ∧
    name.bytes = stem ++ Path.dot :: Text.bytes "feature"

theorem isFeaturePlace_of_locate {disk : Disk} {source : Path} {place : Location}
    (hplace : disk.locate source = .ok place) (hsource : isFeatureFile source = true) :
    IsFeaturePlace place := by
  obtain ⟨stem, hname⟩ := exists_stem_of_isFeatureFile hsource
  obtain ⟨name, hbytes⟩ := Path.exists_name_of_fileName? hname
  obtain ⟨above, habove⟩ := Disk.exists_place_of_fileName? hplace (hbytes ▸ hname)
  exact ⟨above, name, stem, habove, hbytes.symm⟩

/-- A module is no feature file by its name. -/
theorem not_isFeaturePlace {options : BuildOptions} {disk : Disk} {file : Path} {place : Location}
    {contents : Contents} (hmodule : disk.locate (options.outputPath file) = .ok place)
    (hwritten : disk.root.entryAt? place = some (.file contents)) : ¬ IsFeaturePlace place := by
  rintro ⟨above, name, stem, rfl, hfeature⟩
  obtain ⟨bytes, hbytes⟩ := Option.isSome_iff_exists.mp
    (Disk.isSome_fileName?_of_file hmodule hwritten)
  obtain ⟨stem', hstem'⟩ := exists_stem_of_outputPath hbytes
  obtain ⟨name', rfl⟩ := Path.exists_name_of_fileName? hbytes
  obtain ⟨above', hplace⟩ := Disk.exists_place_of_fileName? hmodule hbytes
  obtain rfl : name = name' := List.singleton_inj.mp (List.append_inj' hplace rfl).2
  -- the one name ends in another letter than the other
  have hlast := congrArg List.getLast? (hfeature.symm.trans hstem')
  rw [List.getLast?_append, List.getLast?_append] at hlast
  change some (0x65 : UInt8) = some 0x73 at hlast
  exact absurd hlast (by decide)

/-- A module does not stand where a feature file is. -/
theorem locate_ne_of_isFeatureFile {options : BuildOptions} {disk : Disk} {file source : Path}
    {place : Location} {contents : Contents}
    (hmodule : disk.locate (options.outputPath file) = .ok place)
    (hwritten : disk.root.entryAt? place = some (.file contents))
    (hsource : isFeatureFile source = true) : disk.locate source ≠ .ok place :=
  fun hplace => not_isFeaturePlace hmodule hwritten (isFeaturePlace_of_locate hplace hsource)

/-- The place of a module below the output directory is that of its source, but for the
extension. -/
theorem placeFrom_outputPath {options : BuildOptions} (hsource : options.source.isEmpty = false)
    {place : Location} (hplace : options.IsSource place)
    (hname : (options.outputPath (options.source.below place)).fileName?.isSome = true) :
    ∃ above, ∃ name module : Name, ∃ stem, place = above ++ [name] ∧
      name.bytes = stem ++ Path.dot :: Text.bytes "feature" ∧
      module.bytes = stem ++ Text.bytes ".js" ∧
      ∀ start, (options.outputPath (options.source.below place)).placeFrom start =
        options.output.placeFrom start ++ above ++ [module] := by
  obtain ⟨above, name, stem, rfl, hstem, hfeature⟩ := hplace.exists_stem
  have hcomponents := components_outputPath options hsource above hstem hfeature
  obtain ⟨bytes, hbytes⟩ := Option.isSome_iff_exists.mp hname
  obtain ⟨module, rfl⟩ := Path.exists_name_of_fileName? hbytes
  obtain ⟨init, hinit⟩ := Path.exists_components_of_fileName? hbytes
  have hlast : moduleComponent stem = .name module.bytes :=
    List.singleton_inj.mp (List.append_inj' (hcomponents.symm.trans hinit) rfl).2
  rw [hlast] at hcomponents
  have hmodule : module.bytes = stem ++ Text.bytes ".js" := by
    rw [moduleComponent] at hlast
    split at hlast
    · cases hlast
    · exact (Path.Component.name.inj hlast).symm
  exact ⟨above, name, module, stem, rfl, hfeature, hmodule,
    Path.placeFrom_of_components hcomponents⟩

/-- The modules of different files below the source directory go to different places. -/
theorem eq_of_placeFrom_outputPath {options : BuildOptions}
    (hsource : options.source.isEmpty = false) {first second : Location}
    (hfirst : options.IsSource first) (hsecond : options.IsSource second)
    (hfirst_name : (options.outputPath (options.source.below first)).fileName?.isSome = true)
    (hsecond_name : (options.outputPath (options.source.below second)).fileName?.isSome = true)
    {start : Location}
    (hplace : (options.outputPath (options.source.below first)).placeFrom start =
      (options.outputPath (options.source.below second)).placeFrom start) : first = second := by
  obtain ⟨above, name, module, stem, rfl, hname, hmodule, hfrom⟩ :=
    placeFrom_outputPath hsource hfirst hfirst_name
  obtain ⟨above', name', module', stem', rfl, hname', hmodule', hfrom'⟩ :=
    placeFrom_outputPath hsource hsecond hsecond_name
  rw [hfrom, hfrom', List.append_assoc, List.append_assoc] at hplace
  obtain ⟨habove, hlast⟩ := List.append_inj' (List.append_cancel_left hplace) rfl
  obtain rfl : module = module' := List.singleton_inj.mp hlast
  have hstem : stem = stem' := List.append_cancel_right (hmodule.symm.trans hmodule')
  have hname_eq : name = name' := by
    apply Name.ext
    rw [hname, hname', hstem]
  rw [habove, hname_eq]

end BuildOptions

/-- The modules of the sources of a build, where they are files, go to different places. -/
theorem Disk.pairwise_places_of_discover {disk : Disk}
    {options : BuildOptions} {sources : List Path}
    (hsources : disk.discover options.source = .ok sources) :
    sources.Pairwise fun first second =>
      ∀ start, (options.outputPath first).fileName?.isSome = true →
        (options.outputPath second).fileName?.isSome = true →
        (options.outputPath first).placeFrom start ≠
          (options.outputPath second).placeFrom start := by
  obtain ⟨start, node, hstart, hget, -, rfl⟩ := discover_eq_ok hsources
  have hsource := isEmpty_of_locate hstart
  have hnode : node.WellFormed := disk.wellFormed.get? hget
  rw [List.pairwise_filter, List.pairwise_map]
  cases node with
  | file contents => exact List.pairwise_singleton _ _
  | directory entries =>
      have hdistinct : (Node.directory entries).files.Pairwise (· ≠ ·) := hnode.files_nodup
      apply hdistinct.imp_of_mem
      intro first second hfirst hsecond hne hfirst_feature hsecond_feature start hfirst_name
        hsecond_name hplace
      exact hne (BuildOptions.eq_of_placeFrom_outputPath hsource
        ⟨Node.ne_nil_of_mem_files hfirst, hfirst_feature⟩
        ⟨Node.ne_nil_of_mem_files hsecond, hsecond_feature⟩ hfirst_name hsecond_name hplace)

end FeatureCompiler
