import FeatureCompiler.Catalog.Basic
import FeatureCompiler.Proofs.Path.Order

/-!
Which script a key comes from. Generated modules merge their scripts in order, so that of all
scripts with a key the last one supplies it. A script that is loaded again keeps its first place.
So a key comes from the script that was first loaded last, among those that declare it: it is that
of the last module with the key exactly if no other such script was first loaded after it.
-/

namespace FeatureCompiler

namespace Path

/-- Where a path stands first among others, which may spell it differently. -/
def firstIndex (paths : List Path) (path : Path) : Nat :=
  paths.findIdx path.same

theorem firstIndex_congr {p q : Path} (h : p.same q = true) (paths : List Path) :
    firstIndex paths p = firstIndex paths q := by
  have hsame : p.same = q.same := by
    funext path
    rw [same, same, same_iff.mp h]
  rw [firstIndex, firstIndex, hsame]

theorem firstIndex_lt_iff {paths : List Path} {path : Path} :
    firstIndex paths path < paths.length ↔ ∃ other ∈ paths, path.same other = true :=
  List.findIdx_lt_length

/-- Paths that stand first at one place are the same. -/
theorem same_of_firstIndex_eq {paths : List Path} {p q : Path}
    (hp : firstIndex paths p < paths.length) (h : firstIndex paths p = firstIndex paths q) :
    p.same q = true := by
  have hfound : p.same (paths.get ⟨firstIndex paths p, hp⟩) = true := List.findIdx_getElem
  have hfound' : q.same (paths.get ⟨firstIndex paths q, h ▸ hp⟩) = true := List.findIdx_getElem
  have hget : paths.get ⟨firstIndex paths p, hp⟩ = paths.get ⟨firstIndex paths q, h ▸ hp⟩ := by
    congr
  rw [same_iff] at hfound hfound' ⊢
  rw [hfound, hfound', hget]

theorem firstIndex_append_of_lt {paths : List Path} {path : Path}
    (h : firstIndex paths path < paths.length) (more : List Path) :
    firstIndex (paths ++ more) path = firstIndex paths path := by
  rw [firstIndex, List.findIdx_append]
  exact if_pos h

theorem length_le_firstIndex_append {paths : List Path} {path : Path}
    (h : ¬ firstIndex paths path < paths.length) (more : List Path) :
    paths.length ≤ firstIndex (paths ++ more) path := by
  rw [firstIndex, List.findIdx_append]
  rw [firstIndex] at h
  rw [if_neg h]
  exact Nat.le_add_left _ _

end Path

namespace Catalog

/-- Scripts that some paths name, each once and in the order in which they are first named. -/
structure FirstNamed (paths scripts : List Path) : Prop where
  named {script : Path} : script ∈ scripts → script ∈ paths
  covers {path : Path} : path ∈ paths → ∃ script ∈ scripts, path.same script = true
  ordered : scripts.Pairwise fun first second =>
    Path.firstIndex paths first < Path.firstIndex paths second

theorem FirstNamed.firstIndex_lt {paths scripts : List Path} (h : FirstNamed paths scripts)
    {script : Path} (hscript : script ∈ scripts) :
    Path.firstIndex paths script < paths.length :=
  Path.firstIndex_lt_iff.mpr ⟨script, h.named hscript, Path.same_iff.mpr rfl⟩

/-- One more path is added as the last script if no script is the same. -/
theorem FirstNamed.addScript {paths scripts : List Path} (h : FirstNamed paths scripts)
    (path : Path) : FirstNamed (paths ++ [path]) (Catalog.addScript scripts path) := by
  have hordered : scripts.Pairwise fun first second =>
      Path.firstIndex (paths ++ [path]) first < Path.firstIndex (paths ++ [path]) second := by
    refine List.Pairwise.imp_of_mem ?_ h.ordered
    intro first second hfirst hsecond hlt
    rw [Path.firstIndex_append_of_lt (h.firstIndex_lt hfirst),
      Path.firstIndex_append_of_lt (h.firstIndex_lt hsecond)]
    exact hlt
  rw [Catalog.addScript]
  split
  · next hknown =>
      obtain ⟨known, hmem, hsame⟩ := List.any_eq_true.mp hknown
      refine ⟨fun hscript => List.mem_append_left _ (h.named hscript), ?_, hordered⟩
      intro other hother
      rcases List.mem_append.mp hother with hother | hother
      · exact h.covers hother
      · rw [List.mem_singleton.mp hother]
        exact ⟨known, hmem, hsame⟩
  · next hnew =>
      have hunnamed : ¬ Path.firstIndex paths path < paths.length := by
        intro hlt
        obtain ⟨other, hother, hsame⟩ := Path.firstIndex_lt_iff.mp hlt
        obtain ⟨script, hscript, hsame'⟩ := h.covers hother
        refine hnew (List.any_eq_true.mpr ⟨script, hscript, ?_⟩)
        rw [Path.same_iff] at hsame hsame' ⊢
        exact hsame.trans hsame'
      refine ⟨?_, ?_, ?_⟩
      · intro script hscript
        rcases List.mem_append.mp hscript with hscript | hscript
        · exact List.mem_append_left _ (h.named hscript)
        · exact List.mem_append_right _ hscript
      · intro other hother
        rcases List.mem_append.mp hother with hother | hother
        · obtain ⟨script, hscript, hsame⟩ := h.covers hother
          exact ⟨script, List.mem_append_left _ hscript, hsame⟩
        · rw [List.mem_singleton.mp hother]
          exact ⟨path, List.mem_append_right _ (List.mem_singleton_self _), Path.same_iff.mpr rfl⟩
      · rw [List.pairwise_append]
        refine ⟨hordered, List.pairwise_singleton _ _, ?_⟩
        intro first hfirst second hsecond
        rw [List.mem_singleton.mp hsecond]
        have hlt := h.firstIndex_lt hfirst
        rw [Path.firstIndex_append_of_lt hlt]
        exact Nat.lt_of_lt_of_le hlt (Path.length_le_firstIndex_append hunnamed _)

theorem FirstNamed.foldl_addScript {paths scripts : List Path} (h : FirstNamed paths scripts)
    (more : List Path) : FirstNamed (paths ++ more) (more.foldl Catalog.addScript scripts) := by
  induction more generalizing paths scripts with
  | nil =>
      rw [List.append_nil]
      exact h
  | cons path more ih =>
      have hnext := ih (h.addScript path)
      rw [List.append_assoc, List.singleton_append] at hnext
      exact hnext

theorem firstNamed_scripts (catalog : Catalog) :
    FirstNamed (catalog.modules.map StepModule.script) catalog.scripts := by
  have hnone : FirstNamed [] [] := ⟨nofun, nofun, .nil⟩
  exact hnone.foldl_addScript _

/-- The scripts of the modules that declare a key, in the order in which they are merged. -/
def suppliers (catalog : Catalog) (callee : Callee) : List Path :=
  catalog.scripts.filter fun script =>
    catalog.modules.any fun module => module.Declares callee && module.script.same script

/-- The script that a key comes from. -/
def supplier? (catalog : Catalog) (callee : Callee) : Option Path :=
  (catalog.suppliers callee).getLast?

/-- How many modules were loaded before a script was. -/
def firstLoad (catalog : Catalog) (script : Path) : Nat :=
  Path.firstIndex (catalog.modules.map StepModule.script) script

variable {catalog : Catalog} {callee : Callee} {module last : StepModule}

theorem mem_suppliers_iff {script : Path} :
    script ∈ catalog.suppliers callee ↔ script ∈ catalog.scripts ∧
      ∃ module ∈ catalog.modules, module.Declares callee ∧
        module.script.same script = true := by
  simp only [suppliers, List.mem_filter, List.any_eq_true, Bool.and_eq_true, decide_eq_true_iff]

/-- The script of a module that declares a key is one of those that supply it. -/
theorem exists_mem_suppliers (hmodule : module ∈ catalog.modules)
    (hdeclares : module.Declares callee) :
    ∃ script ∈ catalog.suppliers callee, module.script.same script = true := by
  obtain ⟨script, hscript, hsame⟩ :=
    (firstNamed_scripts catalog).covers (List.mem_map_of_mem hmodule)
  exact ⟨script, mem_suppliers_iff.mpr ⟨hscript, module, hmodule, hdeclares, hsame⟩, hsame⟩

/-- A key that is declared comes from the script that was first loaded last. -/
theorem exists_supplier (hmodule : module ∈ catalog.modules)
    (hdeclares : module.Declares callee) :
    ∃ script, catalog.supplier? callee = some script ∧
      (∃ other ∈ catalog.modules, other.Declares callee ∧
        other.script.same script = true) ∧
      ∀ other ∈ catalog.modules, other.Declares callee →
        catalog.firstLoad other.script ≤ catalog.firstLoad script := by
  have hordered : (catalog.suppliers callee).Pairwise fun first second =>
      catalog.firstLoad first < catalog.firstLoad second :=
    (firstNamed_scripts catalog).ordered.sublist List.filter_sublist
  obtain ⟨found, hfound, -⟩ := exists_mem_suppliers hmodule hdeclares
  rcases List.eq_nil_or_concat (catalog.suppliers callee) with hnil | ⟨init, script, hconcat⟩
  · rw [hnil] at hfound
    cases hfound
  · rw [List.concat_eq_append] at hconcat
    rw [hconcat, List.pairwise_append] at hordered
    refine ⟨script, by rw [supplier?, hconcat, List.getLast?_concat], ?_, ?_⟩
    · have hscript : script ∈ catalog.suppliers callee := by
        rw [hconcat]
        exact List.mem_append_right _ (List.mem_singleton_self _)
      exact (mem_suppliers_iff.mp hscript).2
    · intro other hother hcallee
      obtain ⟨found, hfound, hsame⟩ := exists_mem_suppliers hother hcallee
      rw [firstLoad, Path.firstIndex_congr hsame]
      rw [hconcat] at hfound
      rcases List.mem_append.mp hfound with hfound | hfound
      · exact Nat.le_of_lt (hordered.2.2 found hfound script (List.mem_singleton_self _))
      · rw [List.mem_singleton.mp hfound]
        exact Nat.le_refl _

theorem firstLoad_lt (hmodule : module ∈ catalog.modules) :
    catalog.firstLoad module.script < (catalog.modules.map StepModule.script).length :=
  Path.firstIndex_lt_iff.mpr
    ⟨module.script, List.mem_map_of_mem hmodule, Path.same_iff.mpr rfl⟩

/-- What is loaded up to the last module that declares a key, and after it. -/
theorem exists_split_of_getLast?
    (hlast : (catalog.modules.filter (·.Declares callee)).getLast? = some last) :
    ∃ front after, catalog.modules = front ++ last :: after ∧
      ∀ module ∈ after, ¬ module.Declares callee := by
  obtain ⟨init, hinit⟩ := List.getLast?_eq_some_iff.mp hlast
  obtain ⟨before, rest, hmodules, -, hrest⟩ := List.filter_eq_append_iff.mp hinit
  obtain ⟨skipped, after, rfl, -, -, hafter⟩ := List.filter_eq_cons_iff.mp hrest
  refine ⟨before ++ skipped, after, by rw [hmodules, List.append_assoc], ?_⟩
  intro module hmodule
  have hfiltered := List.filter_eq_nil_iff.mp hafter module hmodule
  rwa [decide_eq_true_iff] at hfiltered

/-- If no script is loaded twice, no script with a key is first loaded after the last module that
declares it. -/
theorem firstLoad_le_of_pairwise
    (hdistinct : catalog.modules.Pairwise fun first second =>
      first.script.same second.script = false)
    (hlast : (catalog.modules.filter (·.Declares callee)).getLast? = some last)
    (hmodule : module ∈ catalog.modules) (hdeclares : module.Declares callee) :
    catalog.firstLoad module.script ≤ catalog.firstLoad last.script := by
  obtain ⟨front, after, hmodules, hafter⟩ := exists_split_of_getLast? hlast
  rw [hmodules] at hmodule hdistinct
  rw [firstLoad, firstLoad, hmodules, List.map_append]
  rcases List.mem_append.mp hmodule with hfront | hrest
  · have hloaded : Path.firstIndex (front.map StepModule.script) module.script <
        (front.map StepModule.script).length :=
      Path.firstIndex_lt_iff.mpr
        ⟨module.script, List.mem_map_of_mem hfront, Path.same_iff.mpr rfl⟩
    have hnew : ¬ Path.firstIndex (front.map StepModule.script) last.script <
        (front.map StepModule.script).length := by
      intro hlt
      obtain ⟨script, hscript, hsame⟩ := Path.firstIndex_lt_iff.mp hlt
      obtain ⟨earlier, hearlier, rfl⟩ := List.mem_map.mp hscript
      have hne := (List.pairwise_append.mp hdistinct).2.2 earlier hearlier last List.mem_cons_self
      rw [Path.same_iff.mpr (Path.same_iff.mp hsame).symm] at hne
      cases hne
    rw [Path.firstIndex_append_of_lt hloaded]
    exact Nat.le_of_lt (Nat.lt_of_lt_of_le hloaded (Path.length_le_firstIndex_append hnew _))
  · rcases List.mem_cons.mp hrest with rfl | hrest
    · exact Nat.le_refl _
    · exact absurd hdeclares (hafter module hrest)

/-- Which script overrides the others. A key that is declared comes from the script that was first
loaded last, of the modules that declare it. That is the script of the last such module exactly if
no other of these scripts was first loaded after it, and always if no script is loaded twice. -/
theorem supplier_first_loaded_last (catalog : Catalog) (callee : Callee) (last : StepModule)
    (hlast : (catalog.modules.filter (·.Declares callee)).getLast? = some last) :
    ∃ script, catalog.supplier? callee = some script ∧
      (∃ module ∈ catalog.modules, module.Declares callee ∧
        module.script.same script = true) ∧
      (∀ module ∈ catalog.modules, module.Declares callee →
        catalog.firstLoad module.script ≤ catalog.firstLoad script) ∧
      (script.same last.script = true ↔
        ∀ module ∈ catalog.modules, module.Declares callee →
          catalog.firstLoad module.script ≤ catalog.firstLoad last.script) ∧
      ((catalog.modules.Pairwise fun first second =>
          first.script.same second.script = false) → script.same last.script = true) := by
  obtain ⟨hmodule, hdeclared⟩ := List.mem_filter.mp (List.mem_of_getLast? hlast)
  have hdeclares := of_decide_eq_true hdeclared
  obtain ⟨script, hsupplier, ⟨module, hmem, hcallee, hsame⟩, hlatest⟩ :=
    exists_supplier hmodule hdeclares
  have hload : catalog.firstLoad module.script = catalog.firstLoad script :=
    Path.firstIndex_congr hsame _
  have hiff : script.same last.script = true ↔
      ∀ module ∈ catalog.modules, module.Declares callee →
        catalog.firstLoad module.script ≤ catalog.firstLoad last.script := by
    constructor
    · intro hsame_last other hother hother_callee
      have hequal : catalog.firstLoad script = catalog.firstLoad last.script :=
        Path.firstIndex_congr hsame_last _
      rw [← hequal]
      exact hlatest other hother hother_callee
    · intro hall
      have hequal : catalog.firstLoad module.script = catalog.firstLoad last.script := by
        apply Nat.le_antisymm (hall module hmem hcallee)
        rw [hload]
        exact hlatest last hmodule hdeclares
      have hsame_last := Path.same_of_firstIndex_eq (firstLoad_lt hmem) hequal
      rw [Path.same_iff] at hsame hsame_last ⊢
      exact hsame.symm.trans hsame_last
  refine ⟨script, hsupplier, ⟨module, hmem, hcallee, hsame⟩, hlatest, hiff, ?_⟩
  intro hdistinct
  exact hiff.mpr fun other hother hother_callee =>
    firstLoad_le_of_pairwise hdistinct hlast hother hother_callee

/-- Three modules that declare one step, the last of which names the script of the first. -/
def reloadedCatalog : Catalog :=
  Catalog.empty.addAll
    [⟨⟨"a.js"⟩, ⟨"a.js"⟩, [], [], ["When I test"]⟩,
      ⟨⟨"b.js"⟩, ⟨"b.js"⟩, [], [], ["When I test"]⟩,
      ⟨⟨"a.js"⟩, ⟨"a.js"⟩, [], [], ["When I test"]⟩]

/-- A module that is loaded last does not override others if its script was loaded before. -/
theorem reloaded_script_overridden :
    reloadedCatalog.scripts = [⟨"a.js"⟩, ⟨"b.js"⟩] ∧
      ((reloadedCatalog.modules.filter (·.Declares (.step "When I test"))).getLast?.map
        StepModule.script) = some ⟨"a.js"⟩ ∧
      reloadedCatalog.supplier? (.step "When I test") = some ⟨"b.js"⟩ ∧
      Path.same ⟨"b.js"⟩ ⟨"a.js"⟩ = false := by
  decide +kernel

theorem supplier_first_loaded_last_reloaded :
    (reloadedCatalog.modules.filter (·.Declares (.step "When I test"))).getLast? =
        some ⟨⟨"a.js"⟩, ⟨"a.js"⟩, [], [], ["When I test"]⟩ ∧
      ∃ script, reloadedCatalog.supplier? (.step "When I test") = some script ∧
        (∀ module ∈ reloadedCatalog.modules, module.Declares (.step "When I test") →
          reloadedCatalog.firstLoad module.script ≤ reloadedCatalog.firstLoad script) ∧
        (script.same ⟨"a.js"⟩ = true ↔
          ∀ module ∈ reloadedCatalog.modules, module.Declares (.step "When I test") →
            reloadedCatalog.firstLoad module.script ≤ reloadedCatalog.firstLoad ⟨"a.js"⟩) := by
  have hlast : (reloadedCatalog.modules.filter (·.Declares (.step "When I test"))).getLast? =
      some ⟨⟨"a.js"⟩, ⟨"a.js"⟩, [], [], ["When I test"]⟩ := by
    decide +kernel
  obtain ⟨script, hsupplier, -, hlatest, hiff, -⟩ :=
    supplier_first_loaded_last reloadedCatalog (.step "When I test") _ hlast
  exact ⟨hlast, script, hsupplier, hlatest, hiff⟩

end Catalog

end FeatureCompiler
