import FeatureCompiler.Proofs.Script.JsonText
import FeatureCompiler.Proofs.Script.Properties

/-!
Objects of a JSON text as a script reader sees them. It passes over values by counting brackets, and
every JSON value leaves the count as it was. So the properties that it finds are the members of the
object, in their order, and under a hook key it finds the keys of the object that stands there.
-/

namespace FeatureCompiler.Script

open Json (itemTokens nextItemTokens memberTokens nextMemberTokens)

section Skipping

/-- Passing over the tokens turns some open brackets, given by their closing partners, into
others. Brackets further out stay open. -/
def Passes (before : List Char) (tokens : List Json.Token) (after : List Char) : Prop :=
  ∀ (closers : List Char) (more : List Json.Token) (lexs : List Lexeme),
    Shows (tokens ++ more) lexs →
      ∃ rest, skipValue (before ++ closers) lexs = skipValue (after ++ closers) rest ∧
        Shows more rest

theorem Passes.append {before between after : List Char} {first second : List Json.Token}
    (hfirst : Passes before first between) (hsecond : Passes between second after) :
    Passes before (first ++ second) after := by
  intro closers more lexs h
  rw [List.append_assoc] at h
  obtain ⟨middle, hskip, hmiddle⟩ := hfirst closers _ lexs h
  obtain ⟨rest, hrest, hmore⟩ := hsecond closers more middle hmiddle
  exact ⟨rest, hskip.trans hrest, hmore⟩

theorem Passes.inside {tokens : List Json.Token} (h : Passes [] tokens []) (outer : List Char) :
    Passes outer tokens outer :=
  fun closers => h (outer ++ closers)

theorem passes_open {c close : Char} (hc : closing? c = some close) :
    Passes [] [.mark c] [close] := by
  intro closers more lexs h
  cases h with
  | mark hmore => exact ⟨_, by simp [skipValue, hc], hmore⟩

theorem passes_close {c : Char} (hopen : closing? c = none) (hc : isClosing c = true) :
    Passes [c] [.mark c] [] := by
  intro closers more lexs h
  cases h with
  | mark hmore => exact ⟨_, by simp [skipValue, hopen, hc], hmore⟩

/-- Inside brackets a mark that is no bracket is passed over. -/
theorem passes_mark {c : Char} (hopen : closing? c = none) (hc : isClosing c = false)
    (close : Char) : Passes [close] [.mark c] [close] := by
  intro closers more lexs h
  cases h with
  | mark hmore => exact ⟨_, by simp [skipValue, hopen, hc], hmore⟩

theorem passes_string (content : String) : Passes [] [.string content] [] := by
  intro closers more lexs h
  cases h with
  | string _ hmore => exact ⟨_, by simp [skipValue], hmore⟩

theorem skipValue_plain {lexeme : Lexeme} (h : lexeme.isPlain = true) (closers : List Char)
    (rest : List Lexeme) : skipValue closers (lexeme :: rest) = skipValue closers rest := by
  obtain ⟨token, source⟩ := lexeme
  cases token with
  | word name => rw [skipValue]; simp
  | literal => cases h
  | mark c =>
      simp only [Lexeme.isPlain, Bool.or_eq_true, decide_eq_true_eq] at h
      rcases h with (rfl | rfl) | rfl <;> cases closers <;> simp [skipValue, closing?, isClosing]

theorem passes_plain : Passes [] [.plain] [] := by
  intro closers more lexs h
  induction lexs with
  | nil =>
      cases h with
      | plainEnd hmore => exact ⟨[], rfl, hmore⟩
  | cons lexeme lexs ih =>
      cases h with
      | plain hplain hrest =>
          obtain ⟨rest, hskip, hmore⟩ := ih hrest
          exact ⟨rest, (skipValue_plain hplain _ _).trans hskip, hmore⟩
      | plainEnd hmore => exact ⟨_, rfl, hmore⟩

mutual

/-- Every JSON value is passed over as a whole. -/
theorem passes_value : (value : Json.Value) → Passes [] value.tokens []
  | .null => passes_plain
  | .bool _ => passes_plain
  | .number _ => passes_plain
  | .string content => passes_string content
  | .array [] => (passes_open rfl).append (passes_close rfl rfl)
  | .array (item :: items) =>
      (passes_open rfl).append (((passes_value item).inside _).append (passes_nextItems items))
  | .object [] => (passes_open rfl).append (passes_close rfl rfl)
  | .object ((key, value) :: members) =>
      (passes_open rfl).append (((passes_string key).inside _).append
        ((passes_mark rfl rfl _).append
          (((passes_value value).inside _).append (passes_nextMembers members))))

theorem passes_nextItems : (items : List Json.Value) → Passes [']'] (nextItemTokens items) []
  | [] => passes_close rfl rfl
  | item :: items =>
      (passes_mark rfl rfl _).append
        (((passes_value item).inside _).append (passes_nextItems items))

theorem passes_nextMembers :
    (members : List (String × Json.Value)) → Passes ['}'] (nextMemberTokens members) []
  | [] => passes_close rfl rfl
  | (key, value) :: members =>
      (passes_mark rfl rfl _).append (((passes_string key).inside _).append
        ((passes_mark rfl rfl _).append
          (((passes_value value).inside _).append (passes_nextMembers members))))

end

end Skipping

section Properties

/-- What follows a value of an object starts with a comma or with the closing brace. -/
def EndsValue (tokens : List Json.Token) : Prop :=
  ∃ c more, tokens = .mark c :: more ∧ (c = ',' ∨ c = '}')

theorem endsValue_nextMembers (members : List (String × Json.Value)) (more : List Json.Token) :
    EndsValue (nextMemberTokens members ++ more) := by
  cases members with
  | nil => exact ⟨'}', _, rfl, .inr rfl⟩
  | cons member members => exact ⟨',', _, rfl, .inl rfl⟩

/-- The reader takes every JSON value in an object, and finds these hooks in it. -/
def ReadsValues (reader : ValueReader) (hooks : String → Json.Value → Option (List String)) :
    Prop :=
  ∀ (key : String) (value : Json.Value) (tokens : List Json.Token) (lexs : List Lexeme),
    EndsValue tokens → Shows (value.tokens ++ tokens) lexs →
      ∃ rest, reader.read (some key) lexs = .ok (hooks key value, rest) ∧ Shows tokens rest

theorem readsValues_skippedValue : ReadsValues skippedValue fun _ _ => none := by
  intro key value tokens lexs hends h
  obtain ⟨rest, hskip, hrest⟩ := passes_value value [] tokens lexs h
  refine ⟨rest, ?_, hrest⟩
  have hstop : skipValue [] rest = .ok rest := by
    obtain ⟨c, more, rfl, hc⟩ := hends
    cases hrest with
    | mark _ => rcases hc with rfl | rfl <;> simp [skipValue, closing?]
  simp only [List.nil_append] at hskip
  simp only [skippedValue, hskip, hstop]
  rfl

variable {reader : ValueReader} {hooks : String → Json.Value → Option (List String)}

theorem readProperty_member (hreader : ReadsValues reader hooks) {key : String}
    {value : Json.Value} {tokens : List Json.Token} {lexs : List Lexeme}
    (hends : EndsValue tokens)
    (h : Shows (.string key :: .mark ':' :: (value.tokens ++ tokens)) lexs) :
    ∃ rest, readProperty reader lexs = .ok ([⟨key, hooks key value⟩], rest) ∧
      Shows tokens rest := by
  cases h with
  | string hspelled hcolon =>
      cases hcolon with
      | @mark _ source _ values hvalue =>
          obtain ⟨rest, hread, hrest⟩ := hreader key value tokens values hends hvalue
          refine ⟨rest, ?_, hrest⟩
          rw [readProperty, bind_eq_ok_iff]
          refine ⟨(some key, ⟨.mark ':', source⟩ :: values), ?_, ?_⟩
          · rw [readKey, bind_eq_ok_iff]
            exact ⟨key, hspelled, rfl⟩
          · dsimp only
            rw [bind_eq_ok_iff]
            exact ⟨_, hread, rfl⟩

/-- The properties of a JSON object are its members. -/
theorem readProperties_members (hreader : ReadsValues reader hooks)
    (members : List (String × Json.Value)) {tokens : List Json.Token} {lexs : List Lexeme}
    (h : Shows (memberTokens members ++ tokens) lexs) :
    ∃ rest, readProperties reader lexs =
        .ok (members.map fun member => ⟨member.1, hooks member.1 member.2⟩, rest) ∧
      Shows tokens rest := by
  induction members generalizing lexs with
  | nil =>
      cases h with
      | mark hrest => exact ⟨_, readProperties_close rfl, hrest⟩
  | cons member members ih =>
      obtain ⟨key, value⟩ := member
      have hopen : afterMark? '}' lexs = none := by
        cases h with
        | string => rfl
      rw [memberTokens, List.cons_append, List.cons_append, List.append_assoc] at h
      obtain ⟨after, hproperty, hafter⟩ :=
        readProperty_member hreader (endsValue_nextMembers members tokens) h
      cases members with
      | nil =>
          cases hafter with
          | mark hrest => exact ⟨_, readProperties_last hopen hproperty, hrest⟩
      | cons next members =>
          cases hafter with
          | mark hmembers =>
              obtain ⟨rest, hread, hrest⟩ := ih hmembers
              refine ⟨rest, ?_, hrest⟩
              rw [readProperties_more hopen hproperty, hread]
              rfl

/-- The keys that are found under a member: those of an object, if the key is one of hooks. -/
def hookKeys (key : String) (value : Json.Value) : Option (List String) :=
  match isHookKey key, value with
  | true, .object members => some (members.map Prod.fst)
  | _, _ => none

/-- Only an object starts with a brace. -/
theorem afterMark?_of_not_object {value : Json.Value} {tokens : List Json.Token}
    {lexs : List Lexeme} (hvalue : ∀ members, value ≠ .object members) (hends : EndsValue tokens)
    (h : Shows (value.tokens ++ tokens) lexs) : afterMark? '{' lexs = none := by
  unfold afterMark?
  split
  · rw [if_neg]
    rintro rfl
    cases value with
    | null | bool | number =>
        cases h with
        | plain hplain _ => cases hplain
        | plainEnd hrest =>
            obtain ⟨c, more, rfl, hc⟩ := hends
            cases hrest
            rcases hc with hc | hc <;> cases hc
    | string | array => cases h
    | object members => exact hvalue members rfl
  · rfl

theorem readsValues_hookValue : ReadsValues hookValue hookKeys := by
  intro key value tokens lexs hends h
  have hskipped := readsValues_skippedValue key value tokens lexs hends h
  cases hkey : isHookKey key with
  | false =>
      rw [hookValue_other (some key) (.inl hkey)]
      simpa [hookKeys, hkey] using hskipped
  | true =>
      by_cases hobject : ∃ members, value = .object members
      · obtain ⟨members, rfl⟩ := hobject
        cases h with
        | mark hmembers =>
            obtain ⟨rest, hread, hrest⟩ :=
              readProperties_members readsValues_skippedValue members hmembers
            refine ⟨rest, ?_, hrest⟩
            rw [hookValue_object (some key) hkey rfl, hread, ok_bind]
            simp [hookKeys, hkey, Function.comp_def]
      · have hvalue : ∀ members, value ≠ .object members :=
          fun members hmembers => hobject ⟨members, hmembers⟩
        have hnone : hookKeys key value = none := by
          unfold hookKeys
          split
          · exact absurd rfl (hvalue _)
          · rfl
        rw [hookValue_other (some key) (.inr (afterMark?_of_not_object hvalue hends h)), hnone]
        exact hskipped

end Properties

end FeatureCompiler.Script
