import FeatureCompiler.Proofs.Script.Insertion
import FeatureCompiler.Proofs.Script.Properties
import FeatureCompiler.Script.Export

/-!
Readers of lexemes do not look at the places where they stand. On lexemes that are alike, one after
the other, the exported object is found at the same one, the same brackets are passed over, and the
same keys are read.
-/

namespace FeatureCompiler.Script

open List (Forall₂)

variable {first second : List Lexeme}

section Options

variable {α β γ δ : Type} {related : α → β → Prop} {final : γ → δ → Prop}

theorem rel_orElse {a c : Option α} {b d : Option β} (hleft : Option.Rel related a b)
    (hright : Option.Rel related c d) : Option.Rel related (a <|> c) (b <|> d) := by
  cases hleft with
  | some h => exact .some h
  | none => exact hright

theorem rel_bind {a : Option α} {b : Option β} {f : α → Option γ} {g : β → Option δ}
    (h : Option.Rel related a b) (hnext : ∀ x y, related x y → Option.Rel final (f x) (g y)) :
    Option.Rel final (a >>= f) (b >>= g) := by
  cases h with
  | some h => exact hnext _ _ h
  | none => exact .none

theorem rel_findSome? {items : List γ} {f : γ → Option α} {g : γ → Option β}
    (h : ∀ item, Option.Rel related (f item) (g item)) :
    Option.Rel related (items.findSome? f) (items.findSome? g) := by
  induction items with
  | nil => exact .none
  | cons item items ih =>
      rw [List.findSome?_cons, List.findSome?_cons]
      generalize hf : f item = a, hg : g item = b
      have hitem := h item
      rw [hf, hg] at hitem
      cases hitem with
      | some hfound => exact .some hfound
      | none => exact ih

end Options

section Finding

theorem afterRun?_alike (texts : List String) (h : Forall₂ Alike first second) :
    Option.Rel (Forall₂ Alike) (afterRun? texts first) (afterRun? texts second) := by
  induction h generalizing texts with
  | nil =>
      cases texts with
      | nil => exact .some .nil
      | cons text texts => exact .none
  | cons halike hrest ih =>
      cases texts with
      | nil => exact .some (.cons halike hrest)
      | cons text texts =>
          rw [afterRun?, afterRun?, halike.token]
          split
          · exact ih texts
          · exact .none

theorem afterFirst?_alike (texts : List String) (h : Forall₂ Alike first second) :
    Option.Rel (Forall₂ Alike) (afterFirst? texts first) (afterFirst? texts second) := by
  induction h with
  | nil => exact afterRun?_alike texts .nil
  | cons halike hrest ih => exact rel_orElse (afterRun?_alike texts (.cons halike hrest)) ih

theorem atBrace?_cons (lexeme : Lexeme) (rest : List Lexeme) :
    atBrace? (lexeme :: rest) =
      if lexeme.token = .mark '{' then some (lexeme :: rest) else none := by
  unfold atBrace?
  split
  · next hbrace =>
      cases hbrace
      rw [if_pos rfl]
  · next hother =>
      rw [if_neg]
      intro htoken
      exact hother lexeme.source rest (by rw [← htoken])

theorem atBrace?_alike (h : Forall₂ Alike first second) :
    Option.Rel (Forall₂ Alike) (atBrace? first) (atBrace? second) := by
  cases h with
  | nil => exact .none
  | cons halike hrest =>
      rw [atBrace?_cons, atBrace?_cons, halike.token]
      split
      · exact .some (.cons halike hrest)
      · exact .none

theorem exportedObject?_alike (h : Forall₂ Alike first second) :
    Option.Rel (Forall₂ Alike) (exportedObject? first) (exportedObject? second) := by
  unfold exportedObject?
  apply rel_bind (rel_orElse (afterFirst?_alike _ h) (afterFirst?_alike _ h))
  intro left right hexported
  cases hexported with
  | nil => exact .none
  | @cons leftHead rightHead _ _ halike hrest =>
      obtain ⟨token, source⟩ := leftHead
      obtain ⟨_, place⟩ := rightHead
      cases halike.token
      cases token with
      | word name =>
          apply rel_findSome?
          intro keyword
          apply rel_bind (afterFirst?_alike _ h)
          intro _ _ hbound
          exact atBrace?_alike hbound
      | mark c => exact atBrace?_alike (.cons halike hrest)
      | literal => exact atBrace?_alike (.cons halike hrest)

end Finding

section Skipping

theorem skipGroup_alike (closers : List Char) (h : Forall₂ Alike first second) :
    Agrees (Forall₂ Alike) (skipGroup closers first) (skipGroup closers second) := by
  induction h generalizing closers with
  | nil => exact .error (.inl rfl)
  | @cons left right lefts rights halike hrest ih =>
      by_cases hmark : ∃ c, left.token = .mark c
      · obtain ⟨c, hc⟩ := hmark
        obtain ⟨token, source⟩ := left
        obtain ⟨_, place⟩ := right
        cases halike.token
        cases hc
        simp only [skipGroup]
        split
        · exact ih _
        · split
          · split
            · exact .error (.inl rfl)
            · split
              · split
                · exact .ok hrest
                · exact ih _
              · exact .error (.inl rfl)
          · exact ih _
      · rw [not_exists] at hmark
        rw [skipGroup_skip closers hmark, skipGroup_skip closers (halike.token ▸ hmark)]
        exact ih closers

theorem skipValue_alike (closers : List Char) (h : Forall₂ Alike first second) :
    Agrees (Forall₂ Alike) (skipValue closers first) (skipValue closers second) := by
  induction h generalizing closers with
  | nil => exact .error (.inl rfl)
  | @cons left right lefts rights halike hrest ih =>
      by_cases hmark : ∃ c, left.token = .mark c
      · obtain ⟨c, hc⟩ := hmark
        obtain ⟨token, source⟩ := left
        obtain ⟨_, place⟩ := right
        cases halike.token
        cases hc
        simp only [skipValue]
        split
        · exact ih _
        · split
          · split
            · exact .ok (.cons halike hrest)
            · split
              · exact .error (.inl rfl)
              · exact ih _
          · split
            · split
              · exact ih _
              · exact .error (.inl rfl)
            · exact ih _
      · rw [not_exists] at hmark
        rw [skipValue_skip closers hmark, skipValue_skip closers (halike.token ▸ hmark)]
        exact ih closers

end Skipping

section Reading

/-- The same was read, and what follows is alike. -/
def SameRead {α : Type} (left right : α × List Lexeme) : Prop :=
  left.1 = right.1 ∧ Forall₂ Alike left.2 right.2

theorem endsKey_alike (h : Forall₂ Alike first second) : endsKey second = endsKey first := by
  cases h with
  | nil => rfl
  | @cons left right _ _ halike _ =>
      obtain ⟨token, source⟩ := left
      obtain ⟨_, place⟩ := right
      cases halike.token
      cases token <;> rfl

theorem readKey_dots {c : Char} {source : List Char} (hc : c ≠ '[')
    (h : ['.', '.', '.'] <+: source) (rest : List Lexeme) :
    readKey (⟨.mark c, source⟩ :: rest) =
      (skipValue [] (rest.drop 2) >>= fun after => .ok (none, after)) := by
  obtain ⟨tail, rfl⟩ := h
  rw [List.cons_append, List.cons_append, List.cons_append, readKey]
  · rfl
  · exact hc

theorem readKey_notAKey {c : Char} {source : List Char} (hc : c ≠ '[')
    (h : ¬ ['.', '.', '.'] <+: source) (rest : List Lexeme) :
    readKey (⟨.mark c, source⟩ :: rest) = .error (.notAKey c) := by
  rw [readKey]
  · exact hc
  · rintro tail rfl
    exact h ⟨tail, rfl⟩

theorem readKey_alike (h : Forall₂ Alike first second) :
    Agrees SameRead (readKey first) (readKey second) := by
  induction h with
  | nil => exact .error (.inl rfl)
  | @cons left right lefts rights halike hrest ih =>
      obtain ⟨token, source⟩ := left
      obtain ⟨_, place⟩ := right
      cases halike.token
      cases token with
      | literal =>
          apply (halike.spelled rfl).bind
          rintro key _ rfl
          exact .ok ⟨rfl, hrest⟩
      | word name =>
          rw [readKey, readKey, endsKey_alike hrest]
          split
          · exact ih
          · exact .ok ⟨rfl, hrest⟩
      | mark c =>
          by_cases hc : c = '['
          · subst hc
            apply (skipGroup_alike [] (.cons halike hrest)).bind
            intro _ _ hafter
            exact .ok ⟨rfl, hafter⟩
          · by_cases hdots : ['.', '.', '.'] <+: source
            · rw [readKey_dots hc hdots, readKey_dots hc (halike.dots.mpr hdots)]
              apply (skipValue_alike [] (List.forall₂_drop 2 hrest)).bind
              intro _ _ hafter
              exact .ok ⟨rfl, hafter⟩
            · rw [readKey_notAKey hc hdots, readKey_notAKey hc (fun h => hdots (halike.dots.mp h))]
              exact .error (.inl rfl)

theorem Alike.firstChar {left right : Lexeme} (h : Alike left right) :
    right.firstChar = left.firstChar := by
  unfold Lexeme.firstChar
  rw [h.token]
  split
  · rfl
  · rw [List.headD_eq_head?_getD, List.headD_eq_head?_getD, h.head]

theorem separatorFault_alike (h : Forall₂ Alike first second) :
    separatorFault second = separatorFault first := by
  cases h with
  | nil => rfl
  | cons halike _ => exact congrArg Fault.noSeparator halike.firstChar

theorem afterMark?_alike (c : Char) (h : Forall₂ Alike first second) :
    Option.Rel (Forall₂ Alike) (afterMark? c first) (afterMark? c second) := by
  cases h with
  | nil => exact .none
  | @cons left right _ _ halike hrest =>
      obtain ⟨token, source⟩ := left
      obtain ⟨_, place⟩ := right
      cases halike.token
      cases token with
      | mark d =>
          rw [afterMark?, afterMark?]
          split
          · exact .some hrest
          · exact .none
      | word | literal => exact .none

/-- The reader reads the same off lexemes that are alike. -/
def ValueReader.IsUniform (reader : ValueReader) : Prop :=
  ∀ (key : Option String) {first second : List Lexeme}, Forall₂ Alike first second →
    Agrees SameRead (reader.read key first) (reader.read key second)

variable {reader : ValueReader}

theorem readRest_other {key : Option String} {lexeme : Lexeme} (hcolon : lexeme.token ≠ .mark ':')
    (hparen : lexeme.token ≠ .mark '(') (rest : List Lexeme) :
    readRest reader key (lexeme :: rest) = .ok (none, lexeme :: rest) := by
  unfold readRest
  split
  · next heq => cases heq; exact absurd rfl hcolon
  · next heq => cases heq; exact absurd rfl hparen
  · rfl

theorem readRest_alike (hreader : reader.IsUniform) (key : Option String)
    (h : Forall₂ Alike first second) :
    Agrees SameRead (readRest reader key first) (readRest reader key second) := by
  cases h with
  | nil => exact .ok ⟨rfl, .nil⟩
  | @cons left right lefts rights halike hrest =>
      by_cases hcolon : left.token = .mark ':'
      · obtain ⟨_, source⟩ := left
        obtain ⟨_, place⟩ := right
        cases halike.token
        cases hcolon
        exact hreader key hrest
      by_cases hparen : left.token = .mark '('
      · obtain ⟨_, source⟩ := left
        obtain ⟨_, place⟩ := right
        cases halike.token
        cases hparen
        apply (skipGroup_alike [] (.cons halike hrest)).bind
        intro _ _ hbody
        apply (skipGroup_alike [] hbody).bind
        intro _ _ hafter
        exact .ok ⟨rfl, hafter⟩
      · rw [readRest_other hcolon hparen,
          readRest_other (halike.token ▸ hcolon) (halike.token ▸ hparen)]
        exact .ok ⟨rfl, .cons halike hrest⟩

theorem readProperty_alike (hreader : reader.IsUniform) (h : Forall₂ Alike first second) :
    Agrees SameRead (readProperty reader first) (readProperty reader second) := by
  apply (readKey_alike h).bind
  rintro ⟨key, _⟩ ⟨_, _⟩ ⟨rfl, hafterKey⟩
  apply (readRest_alike hreader key hafterKey).bind
  rintro ⟨hooks, _⟩ ⟨_, _⟩ ⟨rfl, hafter⟩
  exact .ok ⟨rfl, hafter⟩

/-- One property further on, the induction is on the lexemes that are left. -/
theorem readOthers_alike {found : List Property} (h : Forall₂ Alike first second)
    (ih : ∀ {lefts rights : List Lexeme}, lefts.length < first.length → Forall₂ Alike lefts rights →
      Agrees SameRead (readProperties reader lefts) (readProperties reader rights)) :
    Agrees SameRead (readOthers reader found first) (readOthers reader found second) := by
  have hcomma := afterMark?_alike ',' h
  have hclose := afterMark?_alike '}' h
  unfold readOthers
  rw [separatorFault_alike h]
  cases hrest : afterMark? ',' first with
  | some rest =>
      have hshorter := afterMark?_length_lt hrest
      rw [hrest] at hcomma
      generalize afterMark? ',' second = outcome at hcomma
      cases hcomma with
      | some hmore =>
          apply (ih hshorter hmore).bind
          rintro ⟨more, _⟩ ⟨_, _⟩ ⟨rfl, hfinal⟩
          exact .ok ⟨rfl, hfinal⟩
  | none =>
      rw [hrest] at hcomma
      generalize afterMark? ',' second = outcome at hcomma
      cases hcomma
      generalize afterMark? '}' first = left, afterMark? '}' second = right at hclose
      cases hclose with
      | some hfinal => exact .ok ⟨rfl, hfinal⟩
      | none => exact .error (.inl rfl)

theorem readProperties_alike (hreader : reader.IsUniform) (h : Forall₂ Alike first second) :
    Agrees SameRead (readProperties reader first) (readProperties reader second) := by
  induction hlength : first.length using Nat.strongRecOn generalizing first second with
  | ind length ih =>
      subst hlength
      have hclose := afterMark?_alike '}' h
      generalize hleft : afterMark? '}' first = left, hright : afterMark? '}' second = right
        at hclose
      cases hclose with
      | some hrest =>
          rw [readProperties_close hleft, readProperties_close hright]
          exact .ok ⟨rfl, hrest⟩
      | none =>
          rw [readProperties_open hleft, readProperties_open hright]
          apply (readProperty_alike hreader h).and_ok.bind
          rintro ⟨found, after⟩ ⟨_, others⟩ ⟨hproperty, -, rfl, hafter⟩
          have hshorter := readProperty_length_lt hproperty
          exact readOthers_alike hafter fun hlt hmore => ih _ (Nat.lt_trans hlt hshorter) hmore rfl

theorem isUniform_skippedValue : skippedValue.IsUniform := by
  intro key first second h
  apply (skipValue_alike [] h).bind
  intro _ _ hrest
  exact .ok ⟨rfl, hrest⟩

theorem isUniform_hookValue : hookValue.IsUniform := by
  intro key first second h
  have hbrace := afterMark?_alike '{' h
  generalize hleft : afterMark? '{' first = left, hright : afterMark? '{' second = right at hbrace
  cases hbrace with
  | none =>
      rw [hookValue_other key (.inr hleft), hookValue_other key (.inr hright)]
      exact isUniform_skippedValue key h
  | some hrest =>
      cases hkey : key.any isHookKey with
      | false =>
          rw [hookValue_other key (.inl hkey), hookValue_other key (.inl hkey)]
          exact isUniform_skippedValue key h
      | true =>
          rw [hookValue_object key hkey hleft, hookValue_object key hkey hright]
          apply (readProperties_alike isUniform_skippedValue hrest).bind
          rintro ⟨properties, _⟩ ⟨_, _⟩ ⟨rfl, hafter⟩
          exact .ok ⟨rfl, hafter⟩

/-- The same properties are read off lexemes that are alike. -/
theorem readObject_alike (h : Forall₂ Alike first second) :
    Agrees SameRead (readObject first) (readObject second) :=
  readProperties_alike isUniform_hookValue (List.forall₂_drop 1 h)

end Reading

end FeatureCompiler.Script
