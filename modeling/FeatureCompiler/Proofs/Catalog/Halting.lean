import FeatureCompiler.Build.StepFiles
import FeatureCompiler.Proofs.Catalog.Extent
import FeatureCompiler.Proofs.Script.Limited
import FeatureCompiler.Proofs.Script.Progress

/-!
Reading a step script comes to an end, whatever the script holds. At every place of it the readers
go forward and stay inside of the script, and the number of its characters says how many rounds they
can take. The outcome is a module, or a fault that names the file.
-/

namespace FeatureCompiler.StepModule

open Script

/-- The module of a script, read in a limited number of rounds. -/
def ofScriptWithin (rounds : Nat) (path : Path) (source : String) : Limited StepModule := do
  let lexs ← lexemesWithin rounds source.toList
  match exportedObject? lexs with
  | some (opening :: _) => do
      let (properties, _) ← readPropertiesWithin hookWithin rounds (opening.source.drop 1)
      ended (properties.foldlM addProperty (empty path))
  | _ => throw .noDefaultExport

theorem ofScriptWithin_eq {rounds : Nat} (path : Path) {source : String}
    (h : source.toList.length + 4 ≤ rounds) :
    ofScriptWithin rounds path source = ended (ofScript path source) := by
  rw [ofScriptWithin, ofScript, (endWithin h).tokens]
  refine ended_bind fun lexs hlexs => ?_
  cases hexport : exportedObject? lexs with
  | none => rfl
  | some object =>
      obtain ⟨hsuffix, start, behind, rfl⟩ := exportedObject?_suffix hexport
      have hlexed := (AreLexemes.suffix ⟨_, hlexs⟩ hsuffix).lexed
      have hstart : start.length ≤ source.toList.length :=
        (source_suffix hlexs _ (hsuffix.subset List.mem_cons_self)).length_le
      have hshort : (start.drop 1).length + 4 ≤ rounds := by
        rw [List.length_drop]
        omega
      dsimp only
      rw [(endWithin hshort).object]
      refine (ended_bind fun read _ => rfl).trans (congrArg ended ?_)
      refine hlexed.object.bind_eq ?_
      rintro ⟨properties, final⟩ ⟨_, rest⟩ ⟨⟨rfl, -⟩, -⟩
      rfl

/-- At every place of a script the readers go forward and stay inside of it, and the same number of
rounds is enough for all of them. In as many rounds the whole script is read, and its file gives a
module or a fault of the script. -/
theorem ofScript_halts (path : Path) (source : String) :
    (∀ start ≤ source.toList.length,
      Progresses source.toList start ∧
      (∀ lexs, Lexed (source.toList.drop start) lexs →
        LexemesProgress source.toList start lexs) ∧
      ∀ rounds, source.toList.length + 4 ≤ rounds → EndWithin rounds (source.toList.drop start)) ∧
    (∀ rounds, source.toList.length + 4 ≤ rounds →
      ofScriptWithin rounds path source = ended (ofScript path source)) ∧
    (path.extension? ≠ some (Text.bytes "json") →
      (∃ module, ofFile path source = .ok module) ∨
        ∃ fault, ofFile path source = .error (.stepFile path (.script fault))) := by
  refine ⟨?_, fun rounds h => ofScriptWithin_eq path h, ?_⟩
  · intro start hstart
    refine ⟨progresses hstart, fun lexs hlexs => hlexs.progresses hstart, fun rounds h => ?_⟩
    apply endWithin
    rw [List.length_drop]
    omega
  · intro hextension
    rw [ofFile, if_neg hextension]
    cases ofScript path source with
    | ok module => exact .inl ⟨module, rfl⟩
    | error fault => exact .inr ⟨fault, rfl⟩

end FeatureCompiler.StepModule
