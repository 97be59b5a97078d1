import FeatureCompiler.Proofs.Disk.Entries
import FeatureCompiler.Proofs.Outcome
import FeatureCompiler.Proofs.Path.Ancestors

/-!
Paths that are followed on a disk. Where a path leads is decided by its components alone; the disk
decides whether it can be followed. What can be followed, or is refused for another reason than that
something is missing, stays so on every later disk that keeps what was there.
-/

namespace FeatureCompiler

namespace Path

/-- Where a component leads from a place, if it leads anywhere. -/
def Component.step (place : Location) : Component → Location
  | .root => []
  | .here => place
  | .up => place.dropLast
  | .name bytes => place ++ (Name.ofPiece? bytes).toList

theorem Component.step_name (place : Location) (name : Name) :
    Component.step place (.name name.bytes) = place ++ [name] := by
  rw [Component.step, Name.ofPiece?_bytes]
  rfl

/-- Where a path leads from a place, if it leads anywhere. -/
def placeFrom (start : Location) (path : Path) : Location :=
  path.components.foldl Component.step start

theorem foldl_step_names (place start : Location) :
    (place.map fun name => Component.name name.bytes).foldl Component.step start =
      start ++ place := by
  induction place generalizing start with
  | nil => simp
  | cons name rest ih => simp [Component.step_name, ih]

theorem placeFrom_of_components {path base : Path} {place : Location} {name : Name}
    (h : path.components = base.components ++ place.map (fun name => .name name.bytes) ++
      [.name name.bytes]) (start : Location) :
    path.placeFrom start = base.placeFrom start ++ place ++ [name] := by
  rw [placeFrom, h, List.foldl_append, List.foldl_append, foldl_step_names]
  exact Component.step_name _ name

end Path

namespace Disk

theorem enter_eq (disk : Disk) (place : Location) (piece : Bytes) :
    disk.enter place piece =
      match disk.root.entryAt? place with
      | none => .error .notFound
      | some (.file _) => .error .notADirectory
      | some .directory =>
          if !Path.isSolid piece then .ok place
          else if piece = [Path.dot, Path.dot] then .ok place.dropLast
          else if isTooLong nameLimit piece then .error .nameTooLong
          else
            match Name.ofPiece? piece with
            | some name =>
                if (disk.root.entryAt? (place ++ [name])).isSome then .ok (place ++ [name])
                else .error .notFound
            | none => .error .notFound := by
  rw [enter, Node.entryAt?]
  cases hplace : disk.root.get? place with
  | none => rfl
  | some node =>
      cases node with
      | file contents => rfl
      | directory entries =>
          have hentry (name : Name) : (disk.root.entryAt? (place ++ [name])).isSome =
              (entries.lookup name).isSome := by
            rw [Node.entryAt?_append, hplace, Option.bind_some, Node.entryAt?, Node.get?_cons]
            cases entries.lookup name <;> simp [Node.get?]
          simp only [hentry]
          rfl

/-- What a step along a path leads to, and what it needs. -/
theorem enter_eq_ok {disk : Disk} {place next : Location} {piece : Bytes}
    (h : disk.enter place piece = .ok next) :
    disk.root.entryAt? place = some .directory ∧ (disk.root.entryAt? next).isSome = true ∧
      next = if Path.isSolid piece then (Path.solidComponent piece).step place else place := by
  rw [enter_eq] at h
  split at h
  · cases h
  · cases h
  · next hplace =>
      refine ⟨hplace, ?_⟩
      split at h
      · next hsolid =>
          cases h
          rw [Bool.not_eq_true'] at hsolid
          simp [hsolid, hplace]
      · next hsolid =>
          rw [Bool.not_eq_true, Bool.not_eq_false'] at hsolid
          rw [if_pos hsolid, Path.solidComponent]
          split at h
          · next hup =>
              cases h
              rw [if_pos hup]
              refine ⟨?_, rfl⟩
              rcases List.eq_nil_or_concat place with rfl | ⟨above, name, rfl⟩
              · rw [List.dropLast_nil, hplace]
                rfl
              · rw [List.concat_eq_append] at hplace ⊢
                rw [List.dropLast_concat, Node.entryAt?_dropLast hplace]
                rfl
          · next hup =>
              rw [if_neg hup]
              split at h
              · cases h
              · split at h
                · next name hname =>
                    split at h
                    · next hentry =>
                        cases h
                        rw [Path.Component.step, hname]
                        exact ⟨hentry, rfl⟩
                    · cases h
                · cases h

theorem foldlM_enter_eq_ok {disk : Disk} {pieces : List Bytes} {start place : Location}
    (h : pieces.foldlM disk.enter start = .ok place) :
    place =
      ((pieces.filter Path.isSolid).map Path.solidComponent).foldl Path.Component.step start := by
  induction pieces generalizing start with
  | nil =>
      cases h
      rfl
  | cons piece rest ih =>
      rw [List.foldlM_cons] at h
      obtain ⟨next, hnext, hrest⟩ := bind_eq_ok h
      obtain ⟨-, -, rfl⟩ := enter_eq_ok hnext
      rw [ih hrest]
      cases hsolid : Path.isSolid piece with
      | true => simp [hsolid]
      | false => simp [hsolid]

theorem isSome_entryAt?_of_foldlM {disk : Disk} {pieces : List Bytes} (hpieces : pieces ≠ [])
    {start place : Location} (h : pieces.foldlM disk.enter start = .ok place) :
    (disk.root.entryAt? place).isSome = true := by
  rcases List.eq_nil_or_concat pieces with rfl | ⟨before, last, rfl⟩
  · exact absurd rfl hpieces
  · rw [List.concat_eq_append, List.foldlM_append] at h
    obtain ⟨above, -, hlast⟩ := bind_eq_ok h
    obtain ⟨next, hnext, hdone⟩ := bind_eq_ok hlast
    cases hdone
    exact (enter_eq_ok hnext).2.1

theorem locate_eq_ok_iff {disk : Disk} {path : Path} {place : Location} :
    disk.locate path = .ok place ↔
      accept path = .ok () ∧ path.isEmpty = false ∧
        disk.follow path (Text.pieces Path.slash path.bytes) = .ok place := by
  rw [locate]
  cases accept path <;> cases path.isEmpty <;> simp [bind, Except.bind]

/-- Where a path leads is decided by its components. -/
theorem placeFrom_of_locate {disk : Disk} {path : Path} {place : Location}
    (h : disk.locate path = .ok place) : path.placeFrom disk.workingDirectory = place := by
  obtain ⟨-, -, hfollow⟩ := locate_eq_ok_iff.mp h
  rw [foldlM_enter_eq_ok hfollow, Path.filter_isSolid_pieces, Path.placeFrom, Path.components,
    List.foldl_append, Path.isAbsolute]
  cases path.lead <;> rfl

theorem isSome_entryAt?_of_locate {disk : Disk} {path : Path} {place : Location}
    (h : disk.locate path = .ok place) : (disk.root.entryAt? place).isSome = true := by
  obtain ⟨-, -, hfollow⟩ := locate_eq_ok_iff.mp h
  exact isSome_entryAt?_of_foldlM (Text.pieces_ne_nil _ _) hfollow

/-- A later disk on which all files and directories are still there, as what they were. -/
structure Keeps (earlier later : Disk) : Prop where
  workingDirectory : later.workingDirectory = earlier.workingDirectory
  directory {place : Location} :
    earlier.root.entryAt? place = some .directory → later.root.entryAt? place = some .directory
  file {place : Location} {contents : Contents} :
    earlier.root.entryAt? place = some (.file contents) →
      ∃ contents, later.root.entryAt? place = some (.file contents)

namespace Keeps

variable {first earlier later : Disk}

theorem refl (disk : Disk) : Keeps disk disk :=
  ⟨rfl, id, fun h => ⟨_, h⟩⟩

theorem trans (hfirst : Keeps first earlier) (hlater : Keeps earlier later) :
    Keeps first later where
  workingDirectory := hlater.workingDirectory.trans hfirst.workingDirectory
  directory h := hlater.directory (hfirst.directory h)
  file h := by
    obtain ⟨_, hearlier⟩ := hfirst.file h
    exact hlater.file hearlier

theorem isSome (h : Keeps earlier later) {place : Location}
    (hplace : (earlier.root.entryAt? place).isSome = true) :
    (later.root.entryAt? place).isSome = true := by
  obtain ⟨found, hfound⟩ := Option.isSome_iff_exists.mp hplace
  cases found with
  | directory => rw [h.directory hfound]; rfl
  | file contents =>
      obtain ⟨_, hlater⟩ := h.file hfound
      rw [hlater]
      rfl

/-- Unless something is missing, a step along a path has the same outcome later. -/
theorem enter (h : Keeps earlier later) {place : Location} {piece : Bytes}
    (hfound : earlier.enter place piece ≠ .error .notFound) :
    later.enter place piece = earlier.enter place piece := by
  rw [enter_eq, enter_eq]
  rw [enter_eq] at hfound
  cases hplace : earlier.root.entryAt? place with
  | none =>
      rw [hplace] at hfound
      exact absurd rfl hfound
  | some found =>
      cases found with
      | file contents =>
          obtain ⟨_, hlater⟩ := h.file hplace
          rw [hlater]
      | directory =>
          rw [hplace] at hfound
          rw [h.directory hplace]
          simp only at hfound ⊢
          split
          · rfl
          · next hsolid =>
              rw [if_neg hsolid] at hfound
              split
              · rfl
              · next hup =>
                  rw [if_neg hup] at hfound
                  split
                  · rfl
                  · next hlong =>
                      rw [if_neg hlong] at hfound
                      split
                      · next name hname =>
                          rw [hname] at hfound
                          dsimp only at hfound
                          split at hfound
                          · next hentry => rw [if_pos hentry, if_pos (h.isSome hentry)]
                          · exact absurd rfl hfound
                      · rfl

theorem foldlM_enter (h : Keeps earlier later) {pieces : List Bytes} {start : Location}
    (hfound : pieces.foldlM earlier.enter start ≠ .error .notFound) :
    pieces.foldlM later.enter start = pieces.foldlM earlier.enter start := by
  induction pieces generalizing start with
  | nil => rfl
  | cons piece rest ih =>
      rw [List.foldlM_cons] at hfound ⊢
      rw [List.foldlM_cons]
      have hpiece : earlier.enter start piece ≠ .error .notFound := by
        intro herror
        rw [herror] at hfound
        exact hfound rfl
      rw [h.enter hpiece]
      cases hnext : earlier.enter start piece with
      | error fault => rfl
      | ok next =>
          rw [hnext] at hfound
          exact ih hfound

theorem follow (h : Keeps earlier later) {path : Path} {pieces : List Bytes}
    (hfound : earlier.follow path pieces ≠ .error .notFound) :
    later.follow path pieces = earlier.follow path pieces := by
  rw [Disk.follow, h.workingDirectory]
  exact h.foldlM_enter hfound

theorem locate (h : Keeps earlier later) {path : Path}
    (hfound : earlier.locate path ≠ .error .notFound) :
    later.locate path = earlier.locate path := by
  rw [Disk.locate] at hfound ⊢
  rw [Disk.locate]
  cases haccept : accept path with
  | error fault => rfl
  | ok done =>
      rw [haccept] at hfound
      cases hempty : path.isEmpty with
      | true => rfl
      | false =>
          rw [hempty] at hfound
          exact h.follow hfound

theorem locate_ok (h : Keeps earlier later) {path : Path} {place : Location}
    (hplace : earlier.locate path = .ok place) : later.locate path = .ok place := by
  rw [← hplace]
  apply h.locate
  rw [hplace]
  exact nofun

end Keeps

end Disk

end FeatureCompiler
