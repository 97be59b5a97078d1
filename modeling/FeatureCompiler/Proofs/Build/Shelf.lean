import FeatureCompiler.Build.Shelf
import FeatureCompiler.Proofs.Path.Order
import Mathlib.Data.List.Dedup
import Mathlib.Data.List.Induction

/-!
Writing to a shelf. A text under a new path is added to what the shelf holds, so after writes to
different paths it holds exactly what was written, each text once. After any writes it holds, in the
order of paths, one file for all writes to the same path, with the first spelling and the last text.
-/

namespace FeatureCompiler.Shelf

theorem putFile_perm {path : Path} {text : String} {files : List (Path × String)}
    (hnew : ∀ file ∈ files, path.same file.1 = false) :
    (putFile path text files).Perm ((path, text) :: files) := by
  induction files with
  | nil => exact List.Perm.refl _
  | cons file rest ih =>
      rw [List.forall_mem_cons] at hnew
      rw [putFile]
      split
      · exact List.Perm.refl _
      · next heq =>
          rw [Path.compare_eq_iff, hnew.1] at heq
          cases heq
      · exact ((ih hnew.2).cons file).trans (List.Perm.swap _ _ _)

/-- The shelf after some writes. -/
def writeAll (shelf : Shelf) (writes : List (Path × String)) : Shelf :=
  writes.foldl (fun shelf file => shelf.write file.1 file.2) shelf

theorem writeAll_cons (shelf : Shelf) (path : Path) (text : String)
    (writes : List (Path × String)) :
    shelf.writeAll ((path, text) :: writes) = (shelf.write path text).writeAll writes :=
  rfl

theorem writeAll_perm {shelf : Shelf} {writes : List (Path × String)}
    (hwrites : writes.Pairwise fun first second => first.1.same second.1 = false)
    (hnew : ∀ file ∈ writes, ∀ held ∈ shelf.files, file.1.same held.1 = false) :
    (shelf.writeAll writes).files.Perm (writes ++ shelf.files) := by
  induction writes generalizing shelf with
  | nil => exact List.Perm.refl _
  | cons file rest ih =>
      rw [List.pairwise_cons] at hwrites
      rw [List.forall_mem_cons] at hnew
      have hput : (shelf.write file.1 file.2).files.Perm (file :: shelf.files) :=
        putFile_perm hnew.1
      have hrest : ((shelf.write file.1 file.2).writeAll rest).files.Perm
          (rest ++ (shelf.write file.1 file.2).files) := by
        apply ih hwrites.2
        intro later hlater held hheld
        rcases List.mem_cons.mp (hput.mem_iff.mp hheld) with rfl | hheld
        · rw [Path.same_comm]
          exact hwrites.1 later hlater
        · exact hnew.2 later hlater held hheld
      exact hrest.trans ((hput.append_left rest).trans List.perm_middle)

/-- After writes to different paths, a shelf that was empty holds just these. -/
theorem empty_writeAll_perm {writes : List (Path × String)}
    (hwrites : writes.Pairwise fun first second => first.1.same second.1 = false) :
    (empty.writeAll writes).files.Perm writes := by
  have hperm : (empty.writeAll writes).files.Perm (writes ++ []) := writeAll_perm hwrites nofun
  rwa [List.append_nil] at hperm

/-- The first of some files under a path, however it is spelled. -/
def firstOf (path : Path) (files : List (Path × String)) : Option (Path × String) :=
  files.find? fun file => file.1.same path

/-- The last of some files under a path, however it is spelled. -/
def lastOf (path : Path) (files : List (Path × String)) : Option (Path × String) :=
  firstOf path files.reverse

section Order

variable {path : Path} {text : String} {files : List (Path × String)}

theorem forall_mem_putFile {p : Path → Prop} (hpath : p path) (hfiles : ∀ file ∈ files, p file.1) :
    ∀ file ∈ putFile path text files, p file.1 := by
  induction files with
  | nil => exact List.forall_mem_singleton.mpr hpath
  | cons file rest ih =>
      rw [List.forall_mem_cons] at hfiles
      rw [putFile]
      split
      · exact List.forall_mem_cons.mpr ⟨hpath, List.forall_mem_cons.mpr hfiles⟩
      · exact List.forall_mem_cons.mpr hfiles
      · exact List.forall_mem_cons.mpr ⟨hfiles.1, ih hfiles.2⟩

/-- The files of a shelf come one after the other in the order of their paths. -/
def Ordered (files : List (Path × String)) : Prop :=
  files.Pairwise fun first second => first.1.Before second.1

theorem Ordered.putFile (h : Ordered files) (path : Path) (text : String) :
    Ordered (putFile path text files) := by
  induction files with
  | nil => exact List.pairwise_singleton _ _
  | cons file rest ih =>
      obtain ⟨hfile, hrest⟩ := List.pairwise_cons.mp h
      rw [Shelf.putFile]
      split
      · next hlt =>
          have hbefore := Path.compare_eq_lt_iff.mp hlt
          refine List.pairwise_cons.mpr ⟨?_, h⟩
          exact List.forall_mem_cons.mpr
            ⟨hbefore, fun later hlater => hbefore.trans (hfile later hlater)⟩
      · exact List.pairwise_cons.mpr ⟨hfile, hrest⟩
      · next hgt =>
          exact List.pairwise_cons.mpr
            ⟨forall_mem_putFile (Path.compare_eq_gt_iff.mp hgt) hfile, ih hrest⟩

theorem firstOf_cons (path : Path) (file : Path × String) (rest : List (Path × String)) :
    firstOf path (file :: rest) = if file.1.same path then some file else firstOf path rest := by
  rw [firstOf, List.find?_cons]
  cases file.1.same path <;> rfl

theorem Ordered.firstOf_eq_some_iff (h : Ordered files) {file : Path × String} :
    firstOf path files = some file ↔ file ∈ files ∧ file.1.same path = true := by
  induction files with
  | nil => simp [firstOf]
  | cons head rest ih =>
      obtain ⟨hhead, hrest⟩ := List.pairwise_cons.mp h
      rw [firstOf_cons, List.mem_cons]
      by_cases hsame : head.1.same path = true
      · rw [if_pos hsame, Option.some_inj]
        constructor
        · rintro rfl
          exact ⟨Or.inl rfl, hsame⟩
        · rintro ⟨rfl | hmem, hfile⟩
          · rfl
          · rw [(hhead file hmem).same_eq_false_of_same hsame] at hfile
            cases hfile
      · rw [if_neg hsame, ih hrest]
        constructor
        · rintro ⟨hmem, hfile⟩
          exact ⟨Or.inr hmem, hfile⟩
        · rintro ⟨rfl | hmem, hfile⟩
          · exact absurd hfile hsame
          · exact ⟨hmem, hfile⟩

/-- A write changes the file under its own path only. The file keeps its first spelling. -/
theorem Ordered.firstOf_putFile (h : Ordered files) (path : Path) (text : String) (other : Path) :
    firstOf other (Shelf.putFile path text files) =
      if path.same other then some (((firstOf other files).map Prod.fst).getD path, text)
      else firstOf other files := by
  induction files with
  | nil => rw [Shelf.putFile, firstOf_cons]; rfl
  | cons file rest ih =>
      obtain ⟨hfile, hrest⟩ := List.pairwise_cons.mp h
      rw [Shelf.putFile]
      split
      · next hlt =>
          have hbefore := Path.compare_eq_lt_iff.mp hlt
          rw [firstOf_cons]
          by_cases hsame : path.same other = true
          · have hnone : firstOf other (file :: rest) = none := by
              apply List.find?_eq_none.mpr
              rw [List.forall_mem_cons]
              refine ⟨?_, fun later hlater => ?_⟩
              · simp [hbefore.same_eq_false_of_same hsame]
              · simp [(hbefore.trans (hfile later hlater)).same_eq_false_of_same hsame]
            rw [if_pos hsame, if_pos hsame, hnone]
            rfl
          · rw [if_neg hsame, if_neg hsame]
      · next heq =>
          have hsame : path.same other = file.1.same other := by
            rw [Path.same, Path.same, Path.same_iff.mp (Path.compare_eq_iff.mp heq)]
          rw [firstOf_cons, firstOf_cons, hsame]
          by_cases hother : file.1.same other = true
          · simp [hother]
          · simp [hother]
      · next hgt =>
          have hbefore := Path.compare_eq_gt_iff.mp hgt
          rw [firstOf_cons, firstOf_cons, ih hrest]
          by_cases hother : file.1.same other = true
          · simp [hother, hbefore.same_eq_false_of_same hother]
          · simp [hother]

end Order

section Writes

variable (writes : List (Path × String))

theorem writeAll_concat (shelf : Shelf) (write : Path × String) :
    shelf.writeAll (writes ++ [write]) = (shelf.writeAll writes).write write.1 write.2 :=
  List.foldl_append

theorem ordered_writeAll : Ordered (empty.writeAll writes).files := by
  induction writes using List.reverseRecOn with
  | nil => exact List.Pairwise.nil
  | append_singleton writes write ih =>
      rw [writeAll_concat]
      exact ih.putFile write.1 write.2

theorem firstOf_concat (path : Path) (write : Path × String) :
    firstOf path (writes ++ [write]) =
      (firstOf path writes).or (if write.1.same path then some write else none) := by
  have hone : firstOf path [write] = if write.1.same path then some write else none :=
    firstOf_cons path write []
  rw [← hone]
  exact List.find?_append

theorem lastOf_concat (path : Path) (write : Path × String) :
    lastOf path (writes ++ [write]) =
      if write.1.same path then some write else lastOf path writes := by
  rw [lastOf, List.reverse_append, List.reverse_singleton, List.singleton_append, firstOf_cons]
  rfl

theorem isSome_lastOf (path : Path) :
    (lastOf path writes).isSome = (firstOf path writes).isSome := by
  rw [Bool.eq_iff_iff]
  simp only [lastOf, firstOf, List.find?_isSome, List.mem_reverse]

/-- What a shelf holds under a path after some writes: the first spelling and the last text. -/
theorem firstOf_writeAll (path : Path) :
    firstOf path (empty.writeAll writes).files =
      (firstOf path writes).bind fun first =>
        (lastOf path writes).map fun last => (first.1, last.2) := by
  induction writes using List.reverseRecOn with
  | nil => rfl
  | append_singleton writes write ih =>
      rw [writeAll_concat, Shelf.write, (ordered_writeAll writes).firstOf_putFile, ih,
        firstOf_concat, lastOf_concat]
      have hsome := isSome_lastOf writes path
      by_cases hsame : write.1.same path = true
      · rw [if_pos hsame, if_pos hsame, if_pos hsame]
        cases hfirst : firstOf path writes with
        | none => rfl
        | some first =>
            rw [hfirst] at hsome
            obtain ⟨last, hlast⟩ := Option.isSome_iff_exists.mp hsome
            rw [hlast]
            rfl
      · rw [if_neg hsame, if_neg hsame, if_neg hsame, Option.or_none]

theorem exists_mem_writeAll {write : Path × String} (hwrite : write ∈ writes) :
    ∃ file ∈ (empty.writeAll writes).files, file.1.same write.1 = true := by
  have hfirst : (firstOf write.1 writes).isSome = true :=
    List.find?_isSome.mpr ⟨write, hwrite, Path.same_iff.mpr rfl⟩
  have hlast := (isSome_lastOf writes write.1).trans hfirst
  obtain ⟨first, hfirst⟩ := Option.isSome_iff_exists.mp hfirst
  obtain ⟨last, hlast⟩ := Option.isSome_iff_exists.mp hlast
  have hfile := firstOf_writeAll writes write.1
  rw [hfirst, hlast, Option.bind_some, Option.map_some] at hfile
  exact ⟨_, (ordered_writeAll writes).firstOf_eq_some_iff.mp hfile⟩

theorem spelling_of_mem_writeAll {file : Path × String}
    (hfile : file ∈ (empty.writeAll writes).files) :
    (firstOf file.1 writes).map Prod.fst = some file.1 ∧
      (lastOf file.1 writes).map Prod.snd = some file.2 := by
  have hheld := (ordered_writeAll writes).firstOf_eq_some_iff.mpr ⟨hfile, Path.same_iff.mpr rfl⟩
  rw [firstOf_writeAll, Option.bind_eq_some_iff] at hheld
  obtain ⟨first, hfirst, hheld⟩ := hheld
  obtain ⟨last, hlast, rfl⟩ := Option.map_eq_some_iff.mp hheld
  rw [hfirst, hlast]
  exact ⟨rfl, rfl⟩

/-- The paths of a shelf are those written, each once. -/
theorem components_writeAll_perm :
    ((empty.writeAll writes).files.map fun file => file.1.components).Perm
      (writes.map fun write => write.1.components).dedup := by
  have hordered := ordered_writeAll writes
  have hnodup : ((empty.writeAll writes).files.map fun file => file.1.components).Nodup := by
    refine List.pairwise_map.mpr (hordered.imp fun {first second} hbefore hsame => ?_)
    have hne := hbefore.same_eq_false
    rw [Path.same_iff.mpr hsame] at hne
    cases hne
  rw [List.perm_ext_iff_of_nodup hnodup (List.nodup_dedup _)]
  intro components
  rw [List.mem_dedup, List.mem_map, List.mem_map]
  constructor
  · rintro ⟨file, hfile, rfl⟩
    obtain ⟨first, hfirst, -⟩ :=
      Option.map_eq_some_iff.mp (spelling_of_mem_writeAll writes hfile).1
    have hsame : first.1.same file.1 = true := (List.find?_eq_some_iff_append.mp hfirst).1
    exact ⟨first, List.mem_of_find?_eq_some hfirst, Path.same_iff.mp hsame⟩
  · rintro ⟨write, hwrite, rfl⟩
    obtain ⟨file, hfile, hsame⟩ := exists_mem_writeAll writes hwrite
    exact ⟨file, hfile, Path.same_iff.mp hsame⟩

end Writes

/-- What a shelf holds after any writes. Its files stand in the strict order of paths, and there is
one for every path that was written, however it was spelled. It is spelled as in the first write to
the path and holds the text of the last one. The text under a path is that of the last write to it
in any spelling, and there are as many files as different paths were written. -/
theorem writeAll_keeps_last (writes : List (Path × String)) :
    (empty.writeAll writes).files.Pairwise (fun first second => first.1.Before second.1) ∧
    (∀ write ∈ writes, ∃! file, file ∈ (empty.writeAll writes).files ∧
      file.1.same write.1 = true) ∧
    (∀ file ∈ (empty.writeAll writes).files,
      (firstOf file.1 writes).map Prod.fst = some file.1 ∧
        (lastOf file.1 writes).map Prod.snd = some file.2) ∧
    (∀ path, (empty.writeAll writes).get? path = (lastOf path writes).map Prod.snd) ∧
    (empty.writeAll writes).size = (writes.map fun write => write.1.components).dedup.length := by
  have hordered := ordered_writeAll writes
  refine ⟨hordered, ?_, ?_, ?_, ?_⟩
  · intro write hwrite
    obtain ⟨file, hfile⟩ := exists_mem_writeAll writes hwrite
    refine ⟨file, hfile, fun other hother => ?_⟩
    have hfirst := hordered.firstOf_eq_some_iff.mpr hfile
    rw [hordered.firstOf_eq_some_iff.mpr hother] at hfirst
    exact Option.some.inj hfirst
  · intro file hfile
    exact spelling_of_mem_writeAll writes hfile
  · intro path
    have hget : (empty.writeAll writes).get? path =
        (firstOf path (empty.writeAll writes).files).map Prod.snd := rfl
    rw [hget, firstOf_writeAll]
    cases hfirst : firstOf path writes with
    | none =>
        have hlast := isSome_lastOf writes path
        rw [hfirst] at hlast
        rw [Option.isSome_eq_false_iff.mp hlast |> Option.isNone_iff_eq_none.mp]
        rfl
    | some first =>
        rw [Option.bind_some, Option.map_map]
        rfl
  · have hlength := (components_writeAll_perm writes).length_eq
    rw [List.length_map] at hlength
    exact hlength

/-- Slashes and inner dots do not make a new path, a leading dot does. -/
example : (empty.writeAll [(⟨"a//b/"⟩, "one"), (⟨"./a/b"⟩, "two"), (⟨"a/./b"⟩, "three")]).files =
    [(⟨"./a/b"⟩, "two"), (⟨"a//b/"⟩, "three")] := by
  decide

end FeatureCompiler.Shelf
