import FeatureCompiler.Script.Trivia

/-!
Blanks and comments between the tokens of a script. They are skipped as a whole, wherever they stand
and whatever follows, and what is skipped before a token is never anything else.
-/

namespace FeatureCompiler.Script

/-- Blanks and comments. A line comment ends with its line, a block comment where it can first. -/
inductive IsTrivia : List Char → Prop where
  | nil : IsTrivia []
  | blank {c : Char} {rest : List Char} :
      Text.isBlank c = true → IsTrivia rest → IsTrivia (c :: rest)
  | lineComment {comment rest : List Char} :
      '\n' ∉ comment → IsTrivia rest → IsTrivia ('/' :: '/' :: (comment ++ '\n' :: rest))
  | blockComment {comment rest : List Char} :
      ¬ ['*', '/'] <:+: comment → IsTrivia rest →
        IsTrivia ('/' :: '*' :: (comment ++ '*' :: '/' :: rest))

/-- A line comment that nothing ends, behind blanks and comments. -/
def IsOpenComment (text : List Char) : Prop :=
  ∃ trivia comment, IsTrivia trivia ∧ '\n' ∉ comment ∧ text = trivia ++ '/' :: '/' :: comment

/-- Whether a text starts neither with a blank nor with a comment. -/
def StartsVisibly : List Char → Prop
  | [] => True
  | c :: rest => Text.isBlank c = false ∧
      (c = '/' → ∀ d ∈ rest.head?, d ≠ '/' ∧ d ≠ '*')

theorem skipTrivia_blank {c : Char} (hblank : Text.isBlank c = true) (rest : List Char) :
    skipTrivia .blanks (c :: rest) = skipTrivia .blanks rest := by
  rw [skipTrivia]
  · simp [hblank]
  · rintro after rfl
    cases hblank
  · rintro after rfl
    cases hblank

theorem skipTrivia_lineComment {comment : List Char} (hcomment : '\n' ∉ comment)
    (rest : List Char) :
    skipTrivia .lineComment (comment ++ '\n' :: rest) = skipTrivia .blanks rest := by
  induction comment with
  | nil => simp [skipTrivia]
  | cons c comment ih =>
      rw [List.mem_cons, not_or] at hcomment
      rw [List.cons_append, skipTrivia, if_neg (Ne.symm hcomment.1), ih hcomment.2]

theorem skipTrivia_blockComment {comment : List Char} (hcomment : ¬ ['*', '/'] <:+: comment)
    (rest : List Char) :
    skipTrivia .blockComment (comment ++ '*' :: '/' :: rest) = skipTrivia .blanks rest := by
  induction comment with
  | nil => rw [List.nil_append, skipTrivia]
  | cons c comment ih =>
      have hrest : ¬ ['*', '/'] <:+: comment := fun h => hcomment (List.infix_cons h)
      rw [List.cons_append, skipTrivia]
      · exact ih hrest
      · rintro after rfl hnext
        -- The comment would end here, where it goes on with a slash.
        cases comment with
        | nil => cases hnext
        | cons d comment =>
            obtain ⟨rfl, -⟩ := List.cons.inj hnext
            exact hcomment ⟨[], comment, rfl⟩

theorem IsTrivia.skip {text : List Char} (h : IsTrivia text) (rest : List Char) :
    skipTrivia .blanks (text ++ rest) = skipTrivia .blanks rest := by
  induction h with
  | nil => rfl
  | blank hblank _ ih => rw [List.cons_append, skipTrivia_blank hblank, ih]
  | lineComment hcomment _ ih =>
      rw [List.cons_append, List.cons_append, List.append_assoc, skipTrivia, List.cons_append,
        skipTrivia_lineComment hcomment, ih]
  | blockComment hcomment _ ih =>
      rw [List.cons_append, List.cons_append, List.append_assoc, skipTrivia, List.cons_append,
        List.cons_append, skipTrivia_blockComment hcomment, ih]

theorem IsTrivia.append {first second : List Char} (hfirst : IsTrivia first)
    (hsecond : IsTrivia second) : IsTrivia (first ++ second) := by
  induction hfirst with
  | nil => exact hsecond
  | blank hblank _ ih => exact .blank hblank ih
  | lineComment hcomment _ ih => simpa using IsTrivia.lineComment hcomment ih
  | blockComment hcomment _ ih => simpa using IsTrivia.blockComment hcomment ih

theorem skipTrivia_of_startsVisibly {text : List Char} (h : StartsVisibly text) :
    skipTrivia .blanks text = .ok text := by
  cases text with
  | nil => rfl
  | cons c rest =>
      obtain ⟨hblank, hslash⟩ := h
      rw [skipTrivia]
      · simp [hblank]
      · rintro after rfl rfl
        exact (hslash rfl '/' rfl).1 rfl
      · rintro after rfl rfl
        exact (hslash rfl '*' rfl).2 rfl

/-- What is skipped before `rest`: blanks and comments, with a token or nothing after them, or all
of a text that ends in a line comment. -/
inductive SkipsTo (text rest : List Char) : Prop where
  | closed {trivia : List Char} :
      IsTrivia trivia → text = trivia ++ rest → StartsVisibly rest → SkipsTo text rest
  | commentOpen : IsOpenComment text → rest = [] → SkipsTo text rest

/-- The same from inside of a comment on. -/
def Trivia.SkipsTo : Trivia → List Char → List Char → Prop
  | .blanks, text, rest => Script.SkipsTo text rest
  | .lineComment, text, rest => ('\n' ∉ text ∧ rest = []) ∨
      ∃ comment more, '\n' ∉ comment ∧ text = comment ++ '\n' :: more ∧ Script.SkipsTo more rest
  | .blockComment, text, rest => ∃ comment more, ¬ ['*', '/'] <:+: comment ∧
      text = comment ++ '*' :: '/' :: more ∧ Script.SkipsTo more rest

theorem SkipsTo.behind {trivia text rest : List Char} (htrivia : IsTrivia trivia)
    (h : SkipsTo text rest) : SkipsTo (trivia ++ text) rest := by
  cases h with
  | closed hmore htext hrest =>
      subst htext
      exact .closed (htrivia.append hmore) (List.append_assoc ..).symm hrest
  | commentOpen hopen hrest =>
      obtain ⟨more, comment, hmore, hcomment, rfl⟩ := hopen
      exact .commentOpen
        ⟨_, comment, htrivia.append hmore, hcomment, (List.append_assoc ..).symm⟩ hrest

/-- The text before a token is made of blanks and comments, and of nothing else. -/
theorem skipTrivia_sound {mode : Trivia} {text rest : List Char}
    (h : skipTrivia mode text = .ok rest) : mode.SkipsTo text rest := by
  fun_induction skipTrivia mode text with
  | case1 =>
      cases h
      exact .closed .nil rfl trivial
  | case2 text ih =>
      rcases ih h with ⟨hcomment, hrest⟩ | ⟨comment, more, hcomment, rfl, hmore⟩
      · exact .commentOpen ⟨[], text, .nil, hcomment, rfl⟩ hrest
      · simpa [Trivia.SkipsTo] using hmore.behind (.lineComment hcomment .nil)
  | case3 text ih =>
      obtain ⟨comment, more, hcomment, rfl, hmore⟩ := ih h
      simpa [Trivia.SkipsTo] using hmore.behind (.blockComment hcomment .nil)
  | case4 c text _ _ hblank ih =>
      exact (ih h).behind (.blank hblank .nil)
  | case5 c text hline hblock hblank =>
      cases h
      refine .closed .nil rfl ⟨by simpa using hblank, ?_⟩
      rintro rfl d hd
      cases text with
      | nil => cases hd
      | cons e text =>
          cases hd
          exact ⟨fun h => hline text rfl (h ▸ rfl), fun h => hblock text rfl (h ▸ rfl)⟩
  | case6 =>
      cases h
      exact .inl ⟨List.not_mem_nil, rfl⟩
  | case7 c text ih =>
      by_cases hc : c = '\n'
      · subst hc
        exact .inr ⟨[], text, List.not_mem_nil, rfl, ih h⟩
      · simp only [if_neg hc] at ih h
        have hnot {comment : List Char} (hcomment : '\n' ∉ comment) : '\n' ∉ c :: comment := by
          simp [hcomment, Ne.symm hc]
        rcases ih h with ⟨hcomment, hrest⟩ | ⟨comment, more, hcomment, rfl, hmore⟩
        · exact .inl ⟨hnot hcomment, hrest⟩
        · exact .inr ⟨c :: comment, more, hnot hcomment, rfl, hmore⟩
  | case8 => cases h
  | case9 text ih => exact ⟨[], text, by simp, rfl, ih h⟩
  | case10 c text hend ih =>
      obtain ⟨comment, more, hcomment, rfl, hmore⟩ := ih h
      refine ⟨c :: comment, more, ?_, rfl, hmore⟩
      rw [List.infix_cons_iff, not_or]
      refine ⟨?_, hcomment⟩
      rintro ⟨after, hafter⟩
      obtain ⟨rfl, rfl⟩ := List.cons.inj hafter
      exact hend _ rfl rfl

theorem startsVisibly_of_skipTrivia {text visible : List Char}
    (h : skipTrivia .blanks text = .ok visible) : StartsVisibly visible := by
  cases (skipTrivia_sound h : SkipsTo text visible) with
  | closed _ _ hvisible => exact hvisible
  | commentOpen _ hnil =>
      rw [hnil]
      trivial

theorem skipTrivia_visible {text visible : List Char} (h : skipTrivia .blanks text = .ok visible) :
    skipTrivia .blanks text = skipTrivia .blanks visible :=
  h.trans (skipTrivia_of_startsVisibly (startsVisibly_of_skipTrivia h)).symm

end FeatureCompiler.Script
