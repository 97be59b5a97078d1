import FeatureCompiler.Catalog.Script
import FeatureCompiler.Proofs.Script.Lockstep

/-!
Where the exported object of a step script starts and ends. It is found among the lexemes of the
script, and then its keys are read off the characters from its opening brace on. That reading never
goes astray: it ends at the brace that closes the object, all keys are written in between, and a
literal that is a key covers the same characters as its token.
-/

namespace FeatureCompiler

namespace Script

section Exports

variable {lexs rest object : List Lexeme}

theorem eq_some_of_orElse {α : Type} {first second : Option α} {a : α}
    (h : (first <|> second) = some a) : first = some a ∨ second = some a := by
  cases first with
  | none => exact .inr h
  | some b => exact .inl h

theorem afterRun?_suffix {texts : List String} (h : afterRun? texts lexs = some rest) :
    rest <:+ lexs := by
  fun_induction afterRun? texts lexs with
  | case1 =>
      cases h
      exact List.suffix_refl _
  | case2 => cases h
  | case3 text texts lexeme lexs _ ih => exact (ih h).trans (List.suffix_cons ..)
  | case4 => cases h

theorem afterFirst?_suffix {texts : List String} (h : afterFirst? texts lexs = some rest) :
    rest <:+ lexs := by
  induction lexs with
  | nil => exact afterRun?_suffix h
  | cons lexeme lexs ih =>
      rcases eq_some_of_orElse h with hrun | hlater
      · exact afterRun?_suffix hrun
      · exact (ih hlater).trans (List.suffix_cons ..)

theorem eq_of_atBrace? (h : atBrace? lexs = some object) :
    lexs = object ∧ ∃ start behind, object = ⟨.mark '{', start⟩ :: behind := by
  unfold atBrace? at h
  split at h
  · cases h
    exact ⟨rfl, _, _, rfl⟩
  · cases h

/-- The exported object starts with one of the opening braces of the script. -/
theorem exportedObject?_suffix (h : exportedObject? lexs = some object) :
    object <:+ lexs ∧ ∃ start behind, object = ⟨.mark '{', start⟩ :: behind := by
  obtain ⟨exported, hexported, h⟩ := Option.bind_eq_some_iff.mp h
  split at h
  · obtain ⟨keyword, -, h⟩ := List.exists_of_findSome?_eq_some h
    obtain ⟨bound, hbound, h⟩ := Option.bind_eq_some_iff.mp h
    obtain ⟨rfl, hobject⟩ := eq_of_atBrace? h
    exact ⟨afterFirst?_suffix hbound, hobject⟩
  · obtain ⟨rfl, hobject⟩ := eq_of_atBrace? h
    refine ⟨?_, hobject⟩
    rcases eq_some_of_orElse hexported with hexported | hexported
    · exact afterFirst?_suffix hexported
    · exact afterFirst?_suffix hexported

end Exports

/-- From where the first of some lexemes starts, the same lexemes are read again. -/
theorem AreLexemes.lexed {c : Char} {start : List Char} {behind : List Lexeme}
    (h : AreLexemes (⟨.mark c, start⟩ :: behind)) : Lexed start (⟨.mark c, start⟩ :: behind) := by
  obtain ⟨text, htext⟩ := h
  obtain ⟨visible, htrivia, hbegins⟩ := Lexed.exists_begins htext
  have hvisible := Lexed.behindTrivia htext htrivia
  cases hbegins with
  | mark => exact hvisible

/-- What is read for an object literal is a group in braces, and the keys are inside of it. -/
theorem Lexed.object_group {start finish : List Char} {behind : List Lexeme}
    {properties : List Property} (h : Lexed start (⟨.mark '{', start⟩ :: behind))
    (hwalk : walkObject start = .ok (properties, finish)) :
    ∃ inside rest, behind = inside ++ ⟨.mark '}', '}' :: finish⟩ :: rest ∧
      IsGroup (⟨.mark '{', start⟩ :: (inside ++ [⟨.mark '}', '}' :: finish⟩])) ∧
      ∀ property ∈ properties, ∀ key ∈ property.keys, ∃ lexeme ∈ inside, lexeme.IsKey key := by
  have hmatches := h.object
  rw [hwalk] at hmatches
  generalize hread : readObject (⟨.mark '{', start⟩ :: behind) = read at hmatches
  cases hmatches with
  | @ok _ found hsame =>
      obtain ⟨_, rest⟩ := found
      obtain ⟨⟨rfl, -⟩, hclose⟩ := hsame
      have hlexs : AreLexemes (⟨.mark '{', start⟩ :: behind) := ⟨start, h⟩
      obtain ⟨last, hpasses⟩ :=
        Covers.properties hookValue_isPassing (hlexs.suffix (List.suffix_cons ..)) hread
      -- The brace that is found and the one that closes the group have as many lexemes behind them.
      have hlast : (⟨.mark '}', '}' :: finish⟩ :: rest : List Lexeme) = ⟨.mark '}', last⟩ :: rest :=
        (List.suffix_of_suffix_length_le hclose hpasses.suffix (Nat.le_refl _)).eq_of_length rfl
      cases hlast
      obtain ⟨inside, rfl, hinside, hkeys⟩ := hpasses
      refine ⟨inside, rest, rfl, hinside.isGroup, ?_⟩
      intro property hproperty key hkey
      exact hkeys key (List.mem_flatMap.mpr ⟨property, hproperty, hkey⟩)

end Script

namespace StepModule

open Script

/-- The module is read off the characters from the opening brace of the exported object on. Where
that gives the properties of an object, the text that was read is one group of the lexemes of the
script, from its opening to its closing brace, and the keys are written inside of it. The literals
among them end where their tokens end. -/
theorem ofScript_walks {source : List Char} {lexs behind : List Lexeme} {opening : Lexeme}
    (hlexs : lexemes source = .ok lexs)
    (hexport : exportedObject? lexs = some (opening :: behind)) :
    opening.token = .mark '{' ∧
      (∀ path, ofScript path (String.ofList source) =
        walkObject opening.source >>= fun read => read.1.foldlM addProperty (empty path)) ∧
      (∀ properties finish, walkObject opening.source = .ok (properties, finish) →
        ∃ front inside rest,
          lexs = front ++ opening :: (inside ++ ⟨.mark '}', '}' :: finish⟩ :: rest) ∧
          IsGroup (opening :: (inside ++ [⟨.mark '}', '}' :: finish⟩])) ∧
          ∀ property ∈ properties, ∀ key ∈ property.keys,
            ∃ lexeme ∈ inside, lexeme.IsKey key) ∧
      ∀ quote text value after, isQuote quote = true →
        readLiteral quote text = .ok (value, after) →
        readToken quote text = .ok (.literal, after) := by
  obtain ⟨hsuffix, start, _, hobject⟩ := exportedObject?_suffix hexport
  cases hobject
  have hlexed := (AreLexemes.suffix ⟨source, hlexs⟩ hsuffix).lexed
  refine ⟨rfl, ?_, ?_, fun _ _ _ _ => readToken_of_readLiteral⟩
  · intro path
    have hmatches := hlexed.object
    rw [ofScript, String.toList_ofList, hlexs, ok_bind, hexport]
    dsimp only at hmatches ⊢
    generalize walkObject start = walked, readObject _ = read at hmatches ⊢
    cases hmatches with
    | error hfault =>
        cases hfault
        rfl
    | ok hsame =>
        obtain ⟨⟨hfound, -⟩, -⟩ := hsame
        rw [ok_bind, ok_bind, hfound]
  · intro properties finish hwalk
    obtain ⟨inside, rest, rfl, hgroup, hkeys⟩ := hlexed.object_group hwalk
    obtain ⟨front, rfl⟩ := hsuffix
    exact ⟨front, inside, rest, rfl, hgroup, hkeys⟩

/-- A script whose object has hooks, and a method with a template literal for its key. -/
def methodScript : List Char :=
  "export default\x7bbefore:\x7ba\x7d,`b\\x60`()\x7b\x7d\x7d".toList

def methodLexemes : List Lexeme :=
  [(.word "export", 0), (.word "default", 7), (.mark '{', 14), (.word "before", 15),
    (.mark ':', 21), (.mark '{', 22), (.word "a", 23), (.mark '}', 24), (.mark ',', 25),
    (.literal, 26), (.mark '(', 33), (.mark ')', 34), (.mark '{', 35), (.mark '}', 36),
    (.mark '}', 37)].map fun (token, place) => ⟨token, methodScript.drop place⟩

theorem ofScript_walks_methodScript :
    lexemes methodScript = .ok methodLexemes ∧
      exportedObject? methodLexemes =
        some (⟨.mark '{', methodScript.drop 14⟩ :: methodLexemes.drop 3) ∧
      walkObject (methodScript.drop 14) = .ok ([⟨"before", some ["a"]⟩, ⟨"b`", none⟩], []) ∧
      ∃ front inside rest,
        methodLexemes = front ++ ⟨.mark '{', methodScript.drop 14⟩ ::
          (inside ++ ⟨.mark '}', ['}']⟩ :: rest) ∧
        IsGroup (⟨.mark '{', methodScript.drop 14⟩ :: (inside ++ [⟨.mark '}', ['}']⟩])) ∧
        ∀ property ∈ [(⟨"before", some ["a"]⟩ : Property), ⟨"b`", none⟩],
          ∀ key ∈ property.keys, ∃ lexeme ∈ inside, lexeme.IsKey key := by
  have hlexs : lexemes methodScript = .ok methodLexemes := by decide +kernel
  have hexport : exportedObject? methodLexemes =
      some (⟨.mark '{', methodScript.drop 14⟩ :: methodLexemes.drop 3) := by decide +kernel
  have hwalk : walkObject (methodScript.drop 14) =
      .ok ([⟨"before", some ["a"]⟩, ⟨"b`", none⟩], []) := by decide +kernel
  exact ⟨hlexs, hexport, hwalk, (ofScript_walks hlexs hexport).2.2.1 _ _ hwalk⟩

end StepModule

end FeatureCompiler
