import FeatureCompiler.Proofs.Catalog.Agreement
import FeatureCompiler.Proofs.Script.Properties

/-!
The keys that a script declares. Whatever else stands in the object literal that it exports, the
module that is read from it has the keys written out there: those of the hook objects as hooks, and
all others as steps.
-/

namespace FeatureCompiler

namespace Script

/-- The text of a script that exports an object literal, and the properties of the object. The keys
of hooks stand only before object literals. -/
inductive IsScript : List Char → List Property → Prop where
  | mk {first second third fourth last body : List Char} {properties : List Property} :
      IsTrivia first → IsTrivia second → second ≠ [] → IsTrivia third →
      IsProperties (fun key => isHookKey key = false) HookText body properties →
      IsTrivia fourth → IsTrivia last →
        IsScript (first ++ ("export".toList ++ (second ++ ("default".toList ++
          (third ++ '{' :: (body ++ '}' :: (fourth ++ ';' :: last))))))) properties

theorem ofKey?_eq_none {key : String} (h : isHookKey key = false) : HookKind.ofKey? key = none := by
  cases hkind : HookKind.ofKey? key with
  | none => rfl
  | some kind =>
      rw [StepModule.ofKey?_eq_some_iff.mp hkind, StepModule.isHookKey_key] at h
      cases h

theorem IsProperty.isReadable {text : List Char} {found : List Property}
    (h : IsProperty (fun key => isHookKey key = false) HookText text found) :
    ∀ property ∈ found, property.IsReadable := by
  cases h with
  | value _ _ hvalue =>
      rw [List.forall_mem_singleton]
      cases hvalue with
      | hooks => exact .inr rfl
      | plain hkey _ => exact .inl (ofKey?_eq_none hkey)
  | method _ _ hkey _ =>
      rw [List.forall_mem_singleton]
      exact .inl (ofKey?_eq_none hkey)
  | shorthand _ hkey _ =>
      rw [List.forall_mem_singleton]
      exact .inl (ofKey?_eq_none hkey)
  | computed | computedMethod | spread => exact List.forall_mem_nil _

theorem IsProperties.isReadable {text : List Char} {found : List Property}
    (h : IsProperties (fun key => isHookKey key = false) HookText text found) :
    ∀ property ∈ found, property.IsReadable := by
  induction h with
  | nil => exact List.forall_mem_nil _
  | last _ hproperty => exact hproperty.isReadable
  | cons _ hproperty _ ih => exact List.forall_mem_append.mpr ⟨hproperty.isReadable, ih⟩

theorem IsScript.isReadable {source : List Char} {properties : List Property}
    (h : IsScript source properties) : ∀ property ∈ properties, property.IsReadable := by
  cases h with
  | mk _ _ _ _ hbody _ _ => exact hbody.isReadable

theorem IsScript.exists_lexemes {source : List Char} {properties : List Property}
    (h : IsScript source properties) :
    ∃ first second brace lexs rest, lexemes source =
        .ok (⟨.word "export", first⟩ :: ⟨.word "default", second⟩ :: ⟨.mark '{', brace⟩ :: lexs) ∧
      readProperties hookValue lexs = .ok (properties, rest) := by
  obtain @⟨first, second, third, fourth, last, body, properties, hfirst, hsecond, hne, hthird,
    hbody, hfourth, hlast⟩ := h
  have hend : lexemes last = .ok [] := by
    rw [← List.append_nil last, lexemes_congr (hlast.skip []), lexemes_nil]
  have hsemicolon := lexemes_trivia_mark hfourth (by decide +kernel : isMark ';' = true) hend
  obtain ⟨lexs, hlexs, hread⟩ := hbody.exists_lexemes reads_hookValue hsemicolon
  have hopening : isMark '{' = true := by decide +kernel
  have hbrace := lexemes_trivia_mark hthird hopening hlexs
  have hdefault := lexemes_name (by decide +kernel : isWord "default".toList = true)
    (hthird.ends_word (ends_word_of_isMark hopening)) hbrace
  have hexport := lexemes_name (by decide +kernel : isWord "export".toList = true)
    (hsecond.ends_word_of_ne_nil hne _) ((lexemes_congr (hsecond.skip _)).trans hdefault)
  exact ⟨_, _, _, lexs, _, (lexemes_congr (hfirst.skip _)).trans hexport, hread⟩

end Script

namespace StepModule

open Script

theorem path_addProperty {module final : StepModule} {property : Property}
    (h : module.addProperty property = .ok final) :
    final.path = module.path ∧ final.script = module.script := by
  unfold addProperty at h
  split at h
  · cases h
    exact ⟨rfl, rfl⟩
  · next kind keys _ _ =>
      cases h
      cases kind <;> exact ⟨rfl, rfl⟩
  · cases h

theorem path_foldlM_addProperty {module final : StepModule} {properties : List Property}
    (h : properties.foldlM addProperty module = .ok final) :
    final.path = module.path ∧ final.script = module.script := by
  induction properties generalizing module with
  | nil =>
      cases h
      exact ⟨rfl, rfl⟩
  | cons property rest ih =>
      obtain ⟨next, hnext, hrest⟩ := bind_eq_ok h
      obtain ⟨hpath, hscript⟩ := path_addProperty hnext
      obtain ⟨hrestPath, hrestScript⟩ := ih hrest
      exact ⟨hrestPath.trans hpath, hrestScript.trans hscript⟩

/-- Properties that can be read are all declared, each in its place. -/
theorem foldlM_addProperty_empty {path : Path} {properties : List Property}
    (h : ∀ property ∈ properties, property.IsReadable) :
    properties.foldlM addProperty (empty path) = .ok
      { path := path
        script := path
        before := properties.flatMap fun property => property.declared (some .before)
        after := properties.flatMap fun property => property.declared (some .after)
        steps := properties.flatMap fun property => property.declared none } := by
  obtain ⟨⟨foundPath, script, before, after, steps⟩, hfinal⟩ :=
    exists_foldlM_addProperty_iff.mpr h
  have hdeclared := declared_foldlM_addProperty hfinal
  have hbefore := hdeclared (some .before)
  have hafter := hdeclared (some .after)
  have hsteps := hdeclared none
  obtain ⟨hpath, hscript⟩ := path_foldlM_addProperty hfinal
  simp only [declared, hooks] at hbefore hafter hsteps hpath hscript
  rw [hfinal, hbefore, hafter, hsteps, hpath, hscript]
  rfl

/-- A script declares the keys that are written out in the object literal that it exports, in their
order: the keys of hook objects as hooks, all others as steps. -/
theorem ofScript_of_isScript {source : List Char} {properties : List Property}
    (h : IsScript source properties) (path : Path) :
    ofScript path (String.ofList source) = .ok
      { path := path
        script := path
        before := properties.flatMap fun property => property.declared (some .before)
        after := properties.flatMap fun property => property.declared (some .after)
        steps := properties.flatMap fun property => property.declared none } := by
  obtain ⟨first, second, brace, lexs, rest, hlexs, hread⟩ := h.exists_lexemes
  rw [← foldlM_addProperty_empty h.isReadable, ofScript, String.toList_ofList, hlexs]
  simp only [bind, Except.bind, exportedObject?_export, readObject, List.drop_one, List.tail_cons,
    hread]

/-- A script with properties of every kind. -/
def sampleScript : String :=
  "// a\nexport default \x7b before: \x7b \"i\\x41\": f(`$\x7bb\x7d`, 1) \x7d, " ++
    "async pay() \x7b \x7d, ...m, [k]: 1, get, \x7d;"

theorem isScript_sampleScript :
    IsScript sampleScript.toList [⟨"before", some ["iA"]⟩, ⟨"pay", none⟩, ⟨"get", none⟩] := by
  have hspace : IsTrivia [' '] := .blank (by decide) .nil
  have hword : ∀ c ∈ ['f', 'b', 'm', 'k', '1'], isWordChar c = true :=
    List.all_eq_true.mp (by decide +kernel)
  have hinner : Region.brackets ≠ .template := by decide
  have hvalue : Region.value ≠ .template := by decide
  have hname {region : Region} (hregion : region ≠ .template) :
      ∀ c ∈ ['f', 'b', 'm', 'k', '1'], IsCode region [c] :=
    fun c hc => .wordChar hregion (hword c hc) .nil
  -- The value of the hook, from the substitution outwards.
  have htemplate := IsCode.substitution (hname hinner 'b' (by decide)) .nil
  have harguments : IsCode .brackets _ :=
    .template hinner htemplate (.mark hinner (by decide +kernel : isMark ',' = true) rfl rfl
      (fun _ => rfl) (.trivia hinner hspace (hname hinner '1' (by decide))))
  have hcall : IsCode .value _ :=
    .trivia hvalue hspace (.wordChar hvalue (hword 'f' (by decide))
      (.group hvalue (by rfl : closing? '(' = some ')') harguments (.trivia hvalue hspace .nil)))
  have hescaped : Spelled '"' ['i', '\\', 'x', '4', '1'] ['i', 'A'] :=
    .raw (by decide) (by decide) (by decide) (.escaped (.byte (by decide)) .nil)
  have hhook : IsProperty (fun _ => True) plainText _ [⟨"iA", none⟩] :=
    .value (.literal (by decide) hescaped) .nil ⟨hcall, rfl⟩
  have hkey {name : String} (h : isWord name.toList = true) : Script.IsKey name.toList name := by
    simpa using Script.IsKey.name h
  have hbefore : IsProperty (fun key => isHookKey key = false) HookText _ _ :=
    .value (hkey (by decide +kernel : isWord "before".toList = true)) .nil
      (.hooks rfl hspace (.last hspace hhook) .nil)
  have hmethod := IsMethod.mk .nil .nil hspace (.trivia hinner hspace .nil) .nil
  have hpay : IsProperty (fun key => isHookKey key = false) HookText _ _ :=
    .method (.inr ⟨"async", [' '], rfl, hspace, rfl, by decide +kernel⟩)
      (hkey (by decide +kernel : isWord "pay".toList = true)) rfl hmethod
  have hcomputed : IsProperty (fun key => isHookKey key = false) HookText _ _ :=
    .computed (hname hinner 'k' (by decide)) .nil
      (.trivia hvalue hspace (hname hvalue '1' (by decide)))
  have hget : IsProperty (fun key => isHookKey key = false) HookText "get".toList
      [⟨"get", none⟩] :=
    .shorthand (by decide +kernel : isWord "get".toList = true) rfl .nil
  have hbody := IsProperties.cons hspace hbefore (.cons hspace hpay
    (.cons hspace (.spread (hname hvalue 'm' (by decide)))
      (.cons hspace hcomputed (.cons hspace hget (.nil hspace)))))
  have hcomment : IsTrivia ('/' :: '/' :: ([' ', 'a'] ++ ['\n'])) := .lineComment (by decide) .nil
  have hscript := IsScript.mk hcomment hspace (by decide) hspace hbody .nil .nil
  exact Eq.mp (congrArg (IsScript · _) (by decide +kernel)) hscript

theorem ofScript_of_isScript_sample :
    IsScript sampleScript.toList [⟨"before", some ["iA"]⟩, ⟨"pay", none⟩, ⟨"get", none⟩] ∧
      ofScript ⟨"a.js"⟩ sampleScript = .ok ⟨⟨"a.js"⟩, ⟨"a.js"⟩, ["iA"], [], ["pay", "get"]⟩ := by
  have h := ofScript_of_isScript isScript_sampleScript ⟨"a.js"⟩
  rw [String.ofList_toList] at h
  exact ⟨isScript_sampleScript, h⟩

end StepModule

end FeatureCompiler
