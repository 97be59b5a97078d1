import FeatureCompiler.Proofs.Plan.Resolution

/-!
A catalog is the union of its modules. What its sets hold is what any of the modules that were added
declares, in whatever order they came, and planning asks for nothing else. So the order of modules
does not matter to a plan, nor to the name that is reported in its stead, and more modules can only
move that name further back until there is a plan, which then stays as it is.
-/

namespace FeatureCompiler

namespace Catalog

variable {catalog other : Catalog}

theorem modules_addAll (catalog : Catalog) (modules : List StepModule) :
    (catalog.addAll modules).modules = catalog.modules ++ modules := by
  induction modules generalizing catalog with
  | nil => exact (List.append_nil _).symm
  | cons module rest ih =>
      have hrest := ih (catalog.add module)
      rw [add, List.append_assoc, List.singleton_append] at hrest
      exact hrest

theorem declares_addAll {modules : List StepModule} {callee : Callee} :
    (catalog.addAll modules).Declares callee ↔
      catalog.Declares callee ∨ ∃ module ∈ modules, module.Declares callee := by
  simp only [Declares, modules_addAll, List.mem_append, or_and_right, exists_or]

theorem declares_empty_addAll {modules : List StepModule} {callee : Callee} :
    (empty.addAll modules).Declares callee ↔ ∃ module ∈ modules, module.Declares callee := by
  rw [Declares, modules_addAll]
  rfl

theorem find?_lookup_eq_some_iff {callee found : Callee} :
    catalog.lookup.find? callee = some found ↔ found = callee ∧ catalog.Declares callee := by
  rw [find?_lookup, Option.ite_none_right_eq_some, Option.some_inj, and_comm, eq_comm]

/-- Of a catalog nothing can be asked but what it declares. -/
theorem lookup_congr (h : ∀ callee, catalog.Declares callee ↔ other.Declares callee) :
    catalog.lookup = other.lookup := by
  have hfind (callee : Callee) : catalog.lookup.find? callee = other.lookup.find? callee := by
    simp only [find?_lookup, h callee]
  rw [Lookup.mk.injEq]
  exact ⟨funext fun text => hfind (.step text),
    funext fun kind => funext fun key => hfind (.hook kind key)⟩

end Catalog

namespace Document

variable {catalog other : Catalog}

theorem plan_of_declares (h : ∀ callee, catalog.Declares callee → other.Declares callee)
    {document : Document} {plan : TestPlan} (hplan : document.plan catalog.lookup = .ok plan) :
    document.plan other.lookup = .ok plan := by
  have htests : document.testOf catalog.lookup = document.testOf other.lookup := by
    funext scenario
    simp only [testOf, Catalog.map_resolve_lookup]
  rw [plan_eq_ok_iff, htests] at hplan
  rw [plan_eq_ok_iff]
  refine ⟨?_, hplan.2⟩
  intro scenario hscenario name hname
  have hknows := hplan.1 scenario hscenario name hname
  rw [Catalog.knows_lookup_iff] at hknows ⊢
  exact h name.callee hknows

/-- A request that is missing in a larger catalog comes no earlier than the one that was missing
before. -/
theorem plan_error_of_declares (h : ∀ callee, catalog.Declares callee → other.Declares callee)
    {document : Document} {name : UnknownName} (hplan : document.plan other.lookup = .error name) :
    ∃ earlier later, document.scenarios.flatMap document.requestsOf = earlier ++ name :: later ∧
      ∃ reported ∈ earlier ++ [name], document.plan catalog.lookup = .error reported := by
  rw [plan_eq_valueUnless, valueUnless_eq_error_iff, List.findSome?_eq_some_iff] at hplan
  obtain ⟨earlier, found, later, hrequests, hfound, -⟩ := hplan
  obtain ⟨hmissing, rfl⟩ := Lookup.missing?_eq_some_iff.mp hfound
  have hfirst : catalog.lookup.missing? found = some found := by
    rw [Lookup.missing?_eq_some_iff, Catalog.knows_lookup_iff]
    rw [Catalog.knows_lookup_iff] at hmissing
    exact ⟨fun hdeclares => hmissing (h found.callee hdeclares), rfl⟩
  refine ⟨earlier, later, hrequests, ?_⟩
  simp only [plan_eq_valueUnless, valueUnless_eq_error_iff, hrequests, List.findSome?_append,
    List.findSome?_cons, hfirst]
  cases hsearch : earlier.findSome? catalog.lookup.missing? with
  | none => exact ⟨found, by simp, rfl⟩
  | some reported =>
      obtain ⟨request, hrequest, heq⟩ := List.exists_of_findSome?_eq_some hsearch
      obtain ⟨-, rfl⟩ := Lookup.missing?_eq_some_iff.mp heq
      exact ⟨request, List.mem_append_left _ hrequest, rfl⟩

end Document

/-- A catalog is the union of the modules that were added to it. It knows a step exactly if one of
them lists it, and a hook exactly if one of them lists it under the same kind. So documents are
planned alike for any order of the modules, faults included. A plan stays as it is when more modules
are added, and a name that is missing even then was asked for no earlier than the one missing
before. -/
theorem Catalog.addAll_unites (modules : List StepModule) :
    (∀ text callee, (empty.addAll modules).step? text = some callee ↔
      callee = .step text ∧ ∃ module ∈ modules, text ∈ module.steps) ∧
    (∀ kind key callee, (empty.addAll modules).hook? kind key = some callee ↔
      callee = .hook kind key ∧ ∃ module ∈ modules, key ∈ module.hooks kind) ∧
    ∀ document : Document,
      (∀ reordered : List StepModule, reordered.Perm modules →
        document.plan (empty.addAll reordered).lookup =
          document.plan (empty.addAll modules).lookup) ∧
      ∀ more : List StepModule,
        (∀ plan, document.plan (empty.addAll modules).lookup = .ok plan →
          document.plan ((empty.addAll modules).addAll more).lookup = .ok plan) ∧
        ∀ name, document.plan ((empty.addAll modules).addAll more).lookup = .error name →
          ∃ earlier later,
            document.scenarios.flatMap document.requestsOf = earlier ++ name :: later ∧
            ∃ reported ∈ earlier ++ [name],
              document.plan (empty.addAll modules).lookup = .error reported := by
  refine ⟨?_, ?_, ?_⟩
  · intro text callee
    have hfind : (empty.addAll modules).lookup.find? (.step text) = some callee ↔ _ :=
      find?_lookup_eq_some_iff
    rw [declares_empty_addAll] at hfind
    exact hfind
  · intro kind key callee
    have hfind : (empty.addAll modules).lookup.find? (.hook kind key) = some callee ↔ _ :=
      find?_lookup_eq_some_iff
    rw [declares_empty_addAll] at hfind
    exact hfind
  · intro document
    constructor
    · intro reordered hperm
      have hlookup : (empty.addAll reordered).lookup = (empty.addAll modules).lookup := by
        apply lookup_congr
        intro callee
        simp only [declares_empty_addAll, hperm.mem_iff]
      rw [hlookup]
    · intro more
      have hlarger : ∀ callee, (empty.addAll modules).Declares callee →
          ((empty.addAll modules).addAll more).Declares callee :=
        fun callee hcallee => declares_addAll.mpr (Or.inl hcallee)
      exact ⟨fun plan hplan => Document.plan_of_declares hlarger hplan,
        fun name hname => Document.plan_error_of_declares hlarger hname⟩

end FeatureCompiler
