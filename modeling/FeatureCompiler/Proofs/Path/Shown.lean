import FeatureCompiler.Path.Relative
import FeatureCompiler.Proofs.Disk.Following
import FeatureCompiler.Proofs.Text.Utf8

/-!
Components as they are shown. A name that is no text is shown as another one, which is a name as
well: what tells components apart is written with characters of one byte. So a path that is read
where components are shown has as many components, and its names are theirs as they are shown.
-/

namespace FeatureCompiler

theorem Path.isName_utf8_lossy {bytes : Bytes} (h : IsName bytes) :
    IsName (Text.utf8 (Text.lossy bytes)) := by
  obtain ⟨hsolid, hup, hslash⟩ := h
  -- nothing, a dot and two dots are shown by no other bytes
  have hne {other : Bytes} (hother : (Text.lossy other).all (·.toNat < 0x80) = true)
      (hbytes : bytes ≠ other) : Text.utf8 (Text.lossy bytes) ≠ other :=
    mt (Text.utf8_lossy_eq_iff (by simpa using hother)).mp hbytes
  rw [isSolid, Bool.and_eq_true, decide_eq_true_eq, decide_eq_true_eq] at hsolid
  refine ⟨?_, hne (by decide) hup, ?_⟩
  · rw [isSolid, Bool.and_eq_true, decide_eq_true_eq, decide_eq_true_eq]
    exact ⟨hne (by decide) hsolid.1, hne (by decide) hsolid.2⟩
  · intro hmem
    have hchar : '/' ∈ Text.lossy bytes := Text.mem_of_mem_utf8 (by decide) hmem
    exact hslash ((Text.mem_lossy_iff (by decide)).mp hchar)

namespace Name

/-- The name that is read where a name is shown. -/
def asShown (name : Name) : Name :=
  ⟨Text.utf8 (Text.lossy name.bytes), Path.isName_utf8_lossy name.isName⟩

/-- A name is read as it is if it is a text, and as another one if not. -/
theorem asShown_eq_self_iff {name : Name} :
    name.asShown = name ↔ ∃ text, name.bytes = Text.bytes text := by
  constructor
  · intro h
    refine ⟨String.ofList (Text.lossy name.bytes), ?_⟩
    rw [Text.bytes, String.toList_ofList]
    exact (congrArg Name.bytes h).symm
  · rintro ⟨text, htext⟩
    apply Name.ext
    change Text.utf8 (Text.lossy name.bytes) = name.bytes
    rw [htext, Text.bytes, Text.lossy_utf8]

end Name

namespace Path

/-- Whether a way from a place that was meant to lead to a target leads to what is reached: it goes
up to a place above both, and down by the names of the target as they are shown. -/
def LeadsAsShown (start target reached : Location) : Prop :=
  ∃ shared below : Location, shared <+: start ∧ target = shared ++ below ∧
    reached = shared ++ below.map Name.asShown

/-- The target itself is reached if its names are texts. -/
theorem LeadsAsShown.eq {start target reached : Location} (h : LeadsAsShown start target reached)
    (htexts : ∀ name ∈ target, ∃ text, name.bytes = Text.bytes text) : reached = target := by
  obtain ⟨shared, below, -, rfl, rfl⟩ := h
  congr 1
  refine (List.map_congr_left fun name hname => ?_).trans (List.map_id below)
  exact Name.asShown_eq_self_iff.mpr (htexts name (List.mem_append_right _ hname))

def Component.asShown : Component → Component
  | .name bytes => .name (Text.utf8 (Text.lossy bytes))
  | component => component

/-- Two dots, or a name that can be spelled between slashes. -/
def Component.IsStep : Component → Prop
  | .root => False
  | .here => False
  | .up => True
  | .name bytes => IsName bytes

theorem Component.IsStep.asShown {component : Component} (h : component.IsStep) :
    isSolid component.asShown.bytes = true ∧ slash ∉ component.asShown.bytes ∧
      solidComponent component.asShown.bytes = component.asShown := by
  cases component with
  | root | here => exact h.elim
  | up => exact ⟨by decide, by decide, rfl⟩
  | name bytes =>
      obtain ⟨hsolid, hup, hslash⟩ := isName_utf8_lossy h
      exact ⟨hsolid, hslash, if_neg hup⟩

variable {components : List Component}

end Path

end FeatureCompiler
