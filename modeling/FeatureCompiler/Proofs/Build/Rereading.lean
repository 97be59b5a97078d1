import FeatureCompiler.Proofs.Build.Discovery
import FeatureCompiler.Proofs.Build.OnDisk

/-!
What a build starts from, read once more. On a disk that has only grown, step files that were not
written over are loaded as before, and the same sources are found, unless one of the directories
that were made is too deep to be read.
-/

namespace FeatureCompiler

namespace Disk

open BuildOptions (IsFeaturePlace isFeaturePlace_of_locate)

variable {disk later : Disk} {directories : Path → Prop} {files : List (Path × Contents)}

/-- A step file that no write replaces is loaded as before. -/
theorem loadStepFile_again (hgrows : GrowsBy directories files disk later) {path : Path}
    (hpath : ∀ place, later.locate path = .ok place →
      ∀ file ∈ files, later.locate file.1 ≠ .ok place) {module : StepModule}
    (h : disk.loadStepFile path = .ok module) : later.loadStepFile path = .ok module := by
  rw [loadStepFile] at h
  split at h
  · next hcontains =>
      obtain ⟨node, hnode⟩ := Option.isSome_iff_exists.mp hcontains
      obtain ⟨place, hplace, hget⟩ := exists_locate_of_node? hnode
      have hthere : later.contains path = true := by
        have hentry := hgrows.keeps.isSome (isSome_entryAt?_of_locate hplace)
        rw [contains, node?, hgrows.keeps.locate_ok hplace]
        rwa [Node.entryAt?, Option.isSome_map] at hentry
      have hread : later.readText path = disk.readText path := by
        apply hgrows.readText _ hpath
        simp [hplace]
      rw [loadStepFile, hthere, if_pos rfl, hread]
      exact h
  · cases h

theorem loadCatalog_again (hgrows : GrowsBy directories files disk later) {paths : List Path}
    (hpaths : ∀ path ∈ paths, ∀ place, later.locate path = .ok place →
      ∀ file ∈ files, later.locate file.1 ≠ .ok place) {catalog : Catalog}
    (h : disk.loadCatalog paths = .ok catalog) : later.loadCatalog paths = .ok catalog := by
  obtain ⟨modules, hmodules, hcatalog⟩ := bind_eq_ok h
  rw [loadCatalog, mapM_eq_ok_of_forall hmodules fun path hpath module hmodule =>
    loadStepFile_again hgrows (hpaths path hpath) hmodule]
  exact hcatalog

/-- Whether no directory that has been made below a path is too deep to be read by its path. -/
def StaysReadable (source : Path) (disk later : Disk) : Prop :=
  ∀ start place, later.locate source = .ok start →
    disk.root.entryAt? (start ++ place) = none →
      later.root.entryAt? (start ++ place) = some .directory →
        isTooLong pathLimit (source.below place).bytes = false

/-- A path below another one that is a feature file leads to the place of one. -/
theorem isFeaturePlace_of_below {source : Path} {start place : Location}
    (hstart : disk.locate source = .ok start)
    (hfeature : isFeatureFile (source.below place) = true) : IsFeaturePlace (start ++ place) := by
  by_cases hnil : place = []
  · subst hnil
    rw [List.append_nil]
    exact isFeaturePlace_of_locate hstart hfeature
  · have hsource : (⟨source, ⟨[]⟩, [], false⟩ : BuildOptions).IsSource place :=
      ⟨hnil, hfeature⟩
    obtain ⟨above, name, stem, rfl, -, hname⟩ := hsource.exists_stem
    exact ⟨start ++ above, name, stem, (List.append_assoc _ _ _).symm, hname⟩

/-- A listing has the same feature files later, if what was written are none. -/
theorem filter_files_again {node other : Node} (hnode : node.WellFormed)
    (hother : other.WellFormed) (hgrows : GrowsBy directories files disk later)
    (hfiles : ∀ file ∈ files, ∀ place, later.locate file.1 = .ok place →
      later.root.entryAt? place = some (.file file.2) → ¬ IsFeaturePlace place)
    {source : Path} {start : Location} (hstart : disk.locate source = .ok start)
    (hget : disk.root.get? start = some node) (hget_later : later.root.get? start = some other) :
    other.files.filter (isFeatureFile ∘ source.below) =
      node.files.filter (isFeatureFile ∘ source.below) := by
  apply hother.filter_files_congr hnode
  intro place hfeature
  have hbefore : disk.root.entryAt? (start ++ place) = node.entryAt? place := by
    rw [Node.entryAt?_append, hget, Option.bind_some]
  have hafter : later.root.entryAt? (start ++ place) = other.entryAt? place := by
    rw [Node.entryAt?_append, hget_later, Option.bind_some]
  constructor
  · rintro ⟨contents, hfile⟩
    rcases hgrows.entry (start ++ place) with hsame | ⟨-, hmade, -⟩ |
      ⟨-, written, hwritten, hlocate, hnew⟩
    · exact ⟨contents, by rw [← hbefore, ← hsame, hafter, hfile]⟩
    · rw [hafter, hfile] at hmade
      cases hmade
    · exact absurd (isFeaturePlace_of_below hstart hfeature)
        (hfiles written hwritten _ hlocate hnew)
  · rintro ⟨contents, hfile⟩
    obtain ⟨kept, hkept⟩ := hgrows.keeps.file (hbefore.trans hfile)
    exact ⟨kept, hafter.symm.trans hkept⟩

/-- The sources of a build are found again, if what was written are no feature files. -/
theorem discover_again (hgrows : GrowsBy directories files disk later)
    (hfiles : ∀ file ∈ files, ∀ place, later.locate file.1 = .ok place →
      later.root.entryAt? place = some (.file file.2) → ¬ IsFeaturePlace place)
    {source : Path} {sources : List Path} (hdeep : StaysReadable source disk later)
    (h : disk.discover source = .ok sources) : later.discover source = .ok sources := by
  obtain ⟨start, node, hstart, hget, hbefore, rfl⟩ := discover_eq_ok h
  have hstart_later := hgrows.keeps.locate_ok hstart
  obtain ⟨other, hget_later⟩ : ∃ other, later.root.get? start = some other := by
    have hentry := hgrows.keeps.isSome (isSome_entryAt?_of_locate hstart)
    rw [Node.entryAt?, Option.isSome_map] at hentry
    exact Option.isSome_iff_exists.mp hentry
  have hnode : node.WellFormed := disk.wellFormed.get? hget
  have hother : other.WellFormed := later.wellFormed.get? hget_later
  have hreadable : unreadableDirectory? other source = none := by
    rw [unreadableDirectory?_eq_none_iff hnode] at hbefore
    rw [unreadableDirectory?_eq_none_iff hother]
    intro place hthere
    rw [← Option.bind_some other (·.entryAt? place), ← hget_later, ← Node.entryAt?_append] at hthere
    cases hold : disk.root.entryAt? (start ++ place) with
    | none => exact hdeep start place hstart_later hold hthere
    | some entry =>
        cases entry with
        | file contents =>
            obtain ⟨_, hkept⟩ := hgrows.keeps.file hold
            cases hkept.symm.trans hthere
        | directory =>
            rw [Node.entryAt?_append, hget, Option.bind_some] at hold
            exact hbefore place hold
  have hsame := filter_files_again hnode hother hgrows hfiles hstart hget hget_later
  rw [discover, node?, hstart_later]
  simp only [hget_later, hreadable]
  rw [List.filter_map, List.filter_map, hsame]

/-- A directory that has become too deep is in the way of the sources. -/
theorem discover_of_not_staysReadable {source : Path} (hdeep : ¬ StaysReadable source disk later) :
    ∃ directory, later.discover source = .error (.walk directory .nameTooLong) := by
  simp only [StaysReadable, not_forall, Bool.not_eq_false] at hdeep
  obtain ⟨start, place, hstart, -, hentry, hlong⟩ := hdeep
  rw [Node.entryAt?_append] at hentry
  obtain ⟨node, hget, hentry⟩ := Option.bind_eq_some_iff.mp hentry
  cases hunreadable : unreadableDirectory? node source with
  | none =>
      rw [unreadableDirectory?_eq_none_iff (later.wellFormed.get? hget)] at hunreadable
      rw [hunreadable place hentry] at hlong
      cases hlong
  | some directory =>
      refine ⟨directory, ?_⟩
      rw [discover, node?, hstart]
      simp only [hget, hunreadable]

end Disk

end FeatureCompiler
