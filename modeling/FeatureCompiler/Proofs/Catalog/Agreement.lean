import FeatureCompiler.Catalog.Manifest
import FeatureCompiler.Catalog.Script
import FeatureCompiler.Proofs.Script.JsonObject
import FeatureCompiler.Proofs.Text.Utf8
import Mathlib.Data.List.Perm.Basic

/-!
Step modules that can be written in two ways. A JSON object is a manifest, and behind `export
default` it is a script. Unless it names another script or repeats keys, both declare the same steps
and hooks; the manifest lists them sorted by key, the script as they are written. What is refused as
the one is refused as the other.
-/

namespace FeatureCompiler

open Script (Property hookKeys isHookKey)

section Sorting

variable {key : String} {value : Json.Value} {members sorted : List (String × Json.Value)}

theorem insertMember_perm (hkey : key ∉ sorted.map Prod.fst) :
    (insertMember key value sorted).Perm ((key, value) :: sorted) := by
  induction sorted with
  | nil => exact .refl _
  | cons member rest ih =>
      rw [List.map_cons, List.mem_cons, not_or] at hkey
      rw [insertMember]
      split
      · exact .refl _
      · next heq =>
          have hsame : key = member.1 := Text.bytes_inj.mp (Text.compareBytes_eq_iff.mp heq)
          exact absurd hsame hkey.1
      · exact ((ih hkey.2).cons member).trans (.swap _ _ _)

theorem foldl_insertMember_perm (hkeys : ((members ++ sorted).map Prod.fst).Nodup) :
    (members.foldl (fun sorted member => insertMember member.1 member.2 sorted) sorted).Perm
      (members ++ sorted) := by
  induction members generalizing sorted with
  | nil => exact .refl _
  | cons member rest ih =>
      have hmiddle : (rest ++ member :: sorted).Perm (member :: (rest ++ sorted)) :=
        List.perm_middle
      have hnew : member.1 ∉ sorted.map Prod.fst := by
        rw [List.cons_append, List.map_cons, List.nodup_cons, List.map_append, List.mem_append,
          not_or] at hkeys
        exact hkeys.1.2
      have hinsert : (rest ++ insertMember member.1 member.2 sorted).Perm
          (member :: (rest ++ sorted)) :=
        ((insertMember_perm hnew).append_left rest).trans hmiddle
      exact (ih ((hinsert.map Prod.fst).nodup_iff.mpr hkeys)).trans hinsert

/-- Sorting changes nothing but the order if no key is repeated. -/
theorem sortedMembers_perm (hkeys : (members.map Prod.fst).Nodup) :
    (sortedMembers members).Perm members := by
  rw [← List.append_nil members] at hkeys
  simpa [sortedMembers] using foldl_insertMember_perm hkeys

end Sorting

/-- The keys that a property declares as steps, or as hooks of a kind. -/
def Script.Property.declared (property : Property) : Option HookKind → List String
  | none => if HookKind.ofKey? property.key = none then [property.key] else []
  | some kind =>
      if HookKind.ofKey? property.key = some kind then property.hooks?.getD [] else []

/-- A hook key has to come with hooks. -/
def Script.Property.IsReadable (property : Property) : Prop :=
  HookKind.ofKey? property.key = none ∨ property.hooks?.isSome = true

namespace StepModule

/-- The keys that a module declares as steps, or as hooks of a kind. -/
def declared (module : StepModule) : Option HookKind → List String
  | none => module.steps
  | some kind => module.hooks kind

theorem exists_addProperty_iff (module : StepModule) {property : Property} :
    (∃ final, module.addProperty property = .ok final) ↔ property.IsReadable := by
  obtain ⟨key, hooks?⟩ := property
  cases hkind : HookKind.ofKey? key with
  | none => simp [addProperty, Property.IsReadable, hkind]
  | some kind => cases hooks? <;> simp [addProperty, Property.IsReadable, hkind]

theorem declared_addProperty {module final : StepModule} {property : Property}
    (h : module.addProperty property = .ok final) (kind? : Option HookKind) :
    final.declared kind? = module.declared kind? ++ property.declared kind? := by
  obtain ⟨key, hooks?⟩ := property
  unfold addProperty at h
  split at h
  · next hkind =>
      cases h
      cases kind? with
      | none => simp [declared, addStep, Property.declared, hkind]
      | some kind => cases kind <;> simp [declared, addStep, hooks, Property.declared, hkind]
  · next found keys hkind hkeys =>
      cases h
      dsimp only at hkeys
      subst hkeys
      cases kind? with
      | none => cases found <;> simp [declared, addHooks, Property.declared, hkind]
      | some kind =>
          cases found <;> cases kind <;> simp [declared, addHooks, hooks, Property.declared, hkind]
  · cases h

/-- Properties are all read exactly if each can be. -/
theorem exists_foldlM_addProperty_iff {module : StepModule} {properties : List Property} :
    (∃ final, properties.foldlM addProperty module = .ok final) ↔
      ∀ property ∈ properties, property.IsReadable := by
  induction properties generalizing module with
  | nil => simp [List.foldlM, pure, Except.pure]
  | cons property rest ih =>
      rw [List.forall_mem_cons, ← exists_addProperty_iff module]
      constructor
      · rintro ⟨final, h⟩
        obtain ⟨next, hnext, hrest⟩ := bind_eq_ok h
        exact ⟨⟨next, hnext⟩, ih.mp ⟨final, hrest⟩⟩
      · rintro ⟨⟨next, hnext⟩, hrest⟩
        obtain ⟨final, hfinal⟩ := ih.mpr hrest
        exact ⟨final, bind_eq_ok_iff.mpr ⟨next, hnext, hfinal⟩⟩

theorem declared_foldlM_addProperty {module final : StepModule} {properties : List Property}
    (h : properties.foldlM addProperty module = .ok final) (kind? : Option HookKind) :
    final.declared kind? =
      module.declared kind? ++ properties.flatMap fun property => property.declared kind? := by
  induction properties generalizing module with
  | nil =>
      cases h
      simp
  | cons property rest ih =>
      obtain ⟨next, hnext, hrest⟩ := bind_eq_ok h
      rw [ih hrest, declared_addProperty hnext, List.flatMap_cons, List.append_assoc]

/-- A member of a manifest as a property, with the hooks sorted by key. -/
def manifestProperty (member : String × Json.Value) : Property :=
  ⟨member.1,
    match member.2 with
    | .object hooks => some ((sortedMembers hooks).map Prod.fst)
    | _ => none⟩

/-- A member of an exported JSON object as the property that is read off it. -/
def exportedProperty (member : String × Json.Value) : Property :=
  ⟨member.1, hookKeys member.1 member.2⟩

/-- Whether the member names the script of a manifest. -/
def namesScript (member : String × Json.Value) : Prop :=
  member.1 = scriptKey ∧ isText member.2 = true

theorem addMember_eq_ok_iff {module final : StepModule} {member : String × Json.Value}
    (hmember : ¬ namesScript member) :
    module.addMember member = .ok final ↔
      module.addProperty (manifestProperty member) = .ok final := by
  obtain ⟨key, value⟩ := member
  rw [namesScript] at hmember
  rw [addMember, if_neg hmember]
  cases hkind : HookKind.ofKey? key with
  | none => simp [addProperty, manifestProperty, hkind]
  | some kind => cases value <;> simp [addProperty, manifestProperty, hkind]

theorem foldlM_addMember_eq_ok_iff {module final : StepModule}
    {members : List (String × Json.Value)} (hmembers : ∀ member ∈ members, ¬ namesScript member) :
    members.foldlM addMember module = .ok final ↔
      (members.map manifestProperty).foldlM addProperty module = .ok final := by
  induction members generalizing module with
  | nil => simp [pure, Except.pure]
  | cons member rest ih =>
      rw [List.forall_mem_cons] at hmembers
      simp only [List.map_cons, List.foldlM_cons, bind_eq_ok_iff, addMember_eq_ok_iff hmembers.1,
        ih hmembers.2]

theorem ofKey?_eq_some_iff {key : String} {kind : HookKind} :
    HookKind.ofKey? key = some kind ↔ key = kind.key := by
  unfold HookKind.ofKey?
  split
  · next h => cases kind <;> simp [HookKind.key, h]
  · split
    · next h => cases kind <;> simp [HookKind.key, h]
    · next hbefore hafter => cases kind <;> simp [HookKind.key, hbefore, hafter]

theorem isHookKey_key (kind : HookKind) : isHookKey kind.key = true := by
  cases kind <;> rfl

/-- What stands under the hook keys are objects. -/
def HooksAreObjects (members : List (String × Json.Value)) : Prop :=
  ∀ (kind : HookKind) value, (kind.key, value) ∈ members → ∃ hooks, value = .object hooks

theorem isReadable_manifestProperty_iff {member : String × Json.Value} :
    (manifestProperty member).IsReadable ↔
      ∀ kind : HookKind, member.1 = kind.key → ∃ hooks, member.2 = .object hooks := by
  obtain ⟨key, value⟩ := member
  simp only [← ofKey?_eq_some_iff, Property.IsReadable, manifestProperty]
  cases HookKind.ofKey? key with
  | none => simp
  | some kind => cases value <;> simp

theorem isReadable_exportedProperty_iff {member : String × Json.Value} :
    (exportedProperty member).IsReadable ↔ (manifestProperty member).IsReadable := by
  obtain ⟨key, value⟩ := member
  cases hkind : HookKind.ofKey? key with
  | none => simp [Property.IsReadable, exportedProperty, manifestProperty, hkind]
  | some kind =>
      have hkey : isHookKey key = true := by
        rw [ofKey?_eq_some_iff.mp hkind]
        exact isHookKey_key kind
      cases value <;> simp [Property.IsReadable, exportedProperty, manifestProperty, hookKeys, hkey]

theorem forall_isReadable_iff {members : List (String × Json.Value)} :
    (∀ member ∈ members, (manifestProperty member).IsReadable) ↔ HooksAreObjects members := by
  constructor
  · intro h kind value hmember
    exact isReadable_manifestProperty_iff.mp (h _ hmember) kind rfl
  · intro h member hmember
    rw [isReadable_manifestProperty_iff]
    intro kind hkey
    apply h kind member.2
    rwa [← hkey]

theorem declared_manifestProperty_perm {member : String × Json.Value}
    (hhooks : ∀ (kind : HookKind) hooks, member = (kind.key, .object hooks) →
      (hooks.map Prod.fst).Nodup) (kind? : Option HookKind) :
    ((manifestProperty member).declared kind?).Perm ((exportedProperty member).declared kind?) := by
  obtain ⟨key, value⟩ := member
  cases kind? with
  | none => exact .refl _
  | some kind =>
      by_cases hkind : HookKind.ofKey? key = some kind
      · have hmanifest : (manifestProperty (key, value)).declared (some kind) =
            (manifestProperty (key, value)).hooks?.getD [] := if_pos hkind
        have hexported : (exportedProperty (key, value)).declared (some kind) =
            (hookKeys key value).getD [] := if_pos hkind
        rw [hmanifest, hexported]
        obtain rfl := ofKey?_eq_some_iff.mp hkind
        cases value with
        | object hooks =>
            simp only [manifestProperty, hookKeys, isHookKey_key kind, Option.getD_some]
            exact (sortedMembers_perm (hhooks kind hooks rfl)).map Prod.fst
        | null | bool | number | string | array => simp [manifestProperty, hookKeys]
      · have hmanifest : (manifestProperty (key, value)).declared (some kind) = [] := if_neg hkind
        have hexported : (exportedProperty (key, value)).declared (some kind) = [] := if_neg hkind
        rw [hmanifest, hexported]

variable {path : Path} {source : String} {members : List (String × Json.Value)}

theorem ofManifest_eq_ok_iff (hsource : Json.Value.parse source = .ok (.object members))
    (hmembers : ∀ member ∈ sortedMembers members, ¬ namesScript member) {final : StepModule} :
    ofManifest path source = .ok final ↔
      ((sortedMembers members).map manifestProperty).foldlM addProperty
        { empty path with script := manifestScript path (sortedMembers members) } = .ok final := by
  rw [← foldlM_addMember_eq_ok_iff hmembers, ofManifest, hsource]
  rfl

end StepModule

namespace Script

theorem lexemes_export {source : List Char} {lexs : List Lexeme}
    (hsource : lexemes source = .ok lexs) :
    ∃ first second, lexemes ("export".toList ++ ' ' :: ("default".toList ++ ' ' :: source)) =
      .ok (⟨.word "export", first⟩ :: ⟨.word "default", second⟩ :: lexs) := by
  have hspace : isWordChar ' ' = false := by decide +kernel
  have hblank : Text.isBlank ' ' = true := by decide
  rw [lexemes_word (by decide +kernel) (by simpa using hspace), lexemes_blank hblank,
    lexemes_word (by decide +kernel) (by simpa using hspace), lexemes_blank hblank, hsource]
  exact ⟨_, _, rfl⟩

theorem exportedObject?_export {first second source : List Char} {lexs : List Lexeme} :
    exportedObject? (⟨.word "export", first⟩ :: ⟨.word "default", second⟩ ::
      ⟨.mark '{', source⟩ :: lexs) = some (⟨.mark '{', source⟩ :: lexs) := by
  rfl

end Script

namespace StepModule

variable {path : Path} {source : String} {members : List (String × Json.Value)}

/-- An exported JSON object has its members as properties. -/
theorem ofScript_export (hsource : Json.Value.parse source = .ok (.object members)) :
    ofScript path ("export default " ++ source) =
      (members.map exportedProperty).foldlM addProperty (empty path) := by
  obtain ⟨lexs, hlexs, hshows⟩ := Script.lexemes_of_scans (Json.scans_of_parse hsource)
  obtain ⟨first, second, hlexemes⟩ := Script.lexemes_export hlexs
  have htext : ("export default " ++ source).toList =
      "export".toList ++ ' ' :: ("default".toList ++ ' ' :: source.toList) := by
    rw [String.toList_append]
    rfl
  cases hshows with
  | mark hmembers =>
      rw [← List.append_nil (Json.memberTokens members)] at hmembers
      obtain ⟨rest, hread, -⟩ :=
        Script.readProperties_members Script.readsValues_hookValue members hmembers
      rw [ofScript, htext, hlexemes]
      simp only [bind, Except.bind, Script.exportedObject?_export, Script.readObject, List.drop_one,
        List.tail_cons, hread]
      rfl

theorem not_namesScript (hscript : ∀ script, (scriptKey, Json.Value.string script) ∉ members)
    {member : String × Json.Value} (hmember : member ∈ members) : ¬ namesScript member := by
  rintro ⟨hkey, htext⟩
  obtain ⟨key, value⟩ := member
  cases value with
  | string script =>
      obtain rfl : key = scriptKey := hkey
      exact hscript script hmember
  | null | bool | number | array | object => cases htext

theorem exists_ofManifest_iff (hsource : Json.Value.parse source = .ok (.object members))
    (hkeys : (members.map Prod.fst).Nodup)
    (hscript : ∀ script, (scriptKey, Json.Value.string script) ∉ members) :
    (∃ manifest, ofManifest path source = .ok manifest) ↔ HooksAreObjects members := by
  have hperm : (sortedMembers members).Perm members := sortedMembers_perm hkeys
  simp only [ofManifest_eq_ok_iff hsource
    fun member hmember => not_namesScript hscript (hperm.mem_iff.mp hmember)]
  rw [exists_foldlM_addProperty_iff, List.forall_mem_map, ← forall_isReadable_iff]
  simp only [hperm.mem_iff]

theorem exists_ofScript_iff (hsource : Json.Value.parse source = .ok (.object members)) :
    (∃ script, ofScript path ("export default " ++ source) = .ok script) ↔
      HooksAreObjects members := by
  simp only [ofScript_export hsource]
  rw [exists_foldlM_addProperty_iff, List.forall_mem_map, ← forall_isReadable_iff]
  simp only [isReadable_exportedProperty_iff]

theorem declared_ofManifest_perm (hsource : Json.Value.parse source = .ok (.object members))
    (hkeys : (members.map Prod.fst).Nodup)
    (hhooks : ∀ (kind : HookKind) hooks, (kind.key, Json.Value.object hooks) ∈ members →
      (hooks.map Prod.fst).Nodup)
    (hscript : ∀ script, (scriptKey, Json.Value.string script) ∉ members)
    {manifest script : StepModule} (hmanifest : ofManifest path source = .ok manifest)
    (hexport : ofScript path ("export default " ++ source) = .ok script)
    (kind? : Option HookKind) : (manifest.declared kind?).Perm (script.declared kind?) := by
  have hperm : (sortedMembers members).Perm members := sortedMembers_perm hkeys
  rw [ofManifest_eq_ok_iff hsource
    fun member hmember => not_namesScript hscript (hperm.mem_iff.mp hmember)] at hmanifest
  rw [ofScript_export hsource] at hexport
  have hempty (other : Path) : ({ empty path with script := other }).declared kind? = [] := by
    rcases kind? with _ | (_ | _) <;> rfl
  have hbare : (empty path).declared kind? = [] := hempty path
  rw [declared_foldlM_addProperty hmanifest, declared_foldlM_addProperty hexport, hempty, hbare,
    List.nil_append, List.nil_append, List.flatMap_map, List.flatMap_map]
  apply (hperm.flatMap_right _).trans
  apply List.Perm.flatMap_left
  intro member hmember
  apply declared_manifestProperty_perm
  rintro kind hooks rfl
  exact hhooks kind hooks hmember

/-- A JSON object that repeats no keys and names no script is read alike as a manifest and behind
`export default`. If its hooks stand in objects, both declare the same, in their own order; if not,
both are refused. -/
theorem ofManifest_agrees_ofScript (path : Path)
    (hsource : Json.Value.parse source = .ok (.object members))
    (hkeys : (members.map Prod.fst).Nodup)
    (hhooks : ∀ (kind : HookKind) hooks, (kind.key, Json.Value.object hooks) ∈ members →
      (hooks.map Prod.fst).Nodup)
    (hscript : ∀ script, (scriptKey, Json.Value.string script) ∉ members) :
    (HooksAreObjects members ∧
        ∃ manifest script, ofManifest path source = .ok manifest ∧
          ofScript path ("export default " ++ source) = .ok script ∧
          manifest.before.Perm script.before ∧ manifest.after.Perm script.after ∧
          manifest.steps.Perm script.steps) ∨
      (¬ HooksAreObjects members ∧
        ∃ fault other, ofManifest path source = .error fault ∧
          ofScript path ("export default " ++ source) = .error other) := by
  have hmanifest : (∃ manifest, ofManifest path source = .ok manifest) ↔
      HooksAreObjects members := exists_ofManifest_iff hsource hkeys hscript
  have hexport : (∃ script, ofScript path ("export default " ++ source) = .ok script) ↔
      HooksAreObjects members := exists_ofScript_iff hsource
  by_cases hobjects : HooksAreObjects members
  · left
    obtain ⟨manifest, hmanifest⟩ := hmanifest.mpr hobjects
    obtain ⟨script, hexport⟩ := hexport.mpr hobjects
    have hdeclared := declared_ofManifest_perm hsource hkeys hhooks hscript hmanifest hexport
    exact ⟨hobjects, manifest, script, hmanifest, hexport, hdeclared (some .before),
      hdeclared (some .after), hdeclared none⟩
  · right
    obtain ⟨fault, hfault⟩ := exists_error (mt hmanifest.mp hobjects)
    obtain ⟨other, hother⟩ := exists_error (mt hexport.mp hobjects)
    exact ⟨hobjects, fault, other, hfault, hother⟩

/-- A manifest with escapes, a number, nested brackets, brackets in strings, and a hook key that is
not at the top. -/
def sampleManifest : String :=
  " \x7b\"log\\u0020in \\ud83d\\ude00\": [-12, \x7b\"before\": \"\x7d]\"\x7d],\n" ++
    "\"before\" : \x7b\"b\": null, \"a\\/\": true\x7d, \"module\": 7\x7d "

def sampleMembers : List (String × Json.Value) :=
  [("log in 😀", .array [.number (.negative 12), .object [("before", .string "\x7d]")]]),
    ("before", .object [("b", .null), ("a/", .bool true)]), ("module", .number (.natural 7))]

theorem ofManifest_agrees_ofScript_sample :
    Json.Value.parse sampleManifest = .ok (.object sampleMembers) ∧
      ∃ manifest script, ofManifest ⟨"steps.json"⟩ sampleManifest = .ok manifest ∧
        ofScript ⟨"steps.json"⟩ ("export default " ++ sampleManifest) = .ok script ∧
        manifest.before.Perm script.before ∧ manifest.after.Perm script.after ∧
        manifest.steps.Perm script.steps := by
  have hsource : Json.Value.parse sampleManifest = .ok (.object sampleMembers) := by
    with_unfolding_all rfl
  have hhooks (kind : HookKind) (hooks : List (String × Json.Value))
      (h : (kind.key, Json.Value.object hooks) ∈ sampleMembers) : (hooks.map Prod.fst).Nodup := by
    cases kind with
    | before =>
        simp [sampleMembers, HookKind.key] at h
        subst h
        decide
    | after => simp [sampleMembers, HookKind.key] at h
  have hobjects : HooksAreObjects sampleMembers := by
    intro kind value h
    cases kind <;> simp [sampleMembers, HookKind.key] at h
    exact ⟨_, h⟩
  refine ⟨hsource, ?_⟩
  rcases ofManifest_agrees_ofScript ⟨"steps.json"⟩ hsource (by decide) hhooks
    (by simp [sampleMembers, scriptKey]) with ⟨-, h⟩ | ⟨hnot, -⟩
  · exact h
  · exact absurd hobjects hnot

end StepModule

end FeatureCompiler
