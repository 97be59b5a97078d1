import FeatureCompiler.Proofs.Script.Locality

/-!
Template literals whose escapes are not valid. Where a template literal ends is found without
reading its escapes, so an escape in it can be cut off by the backtick that ends it. The fault that
is found when it is read then shows characters behind the literal. No other fault depends on what
stands there.
-/

namespace FeatureCompiler.Script

/-- A fault of an escape that a backtick may have cut off. -/
def Fault.IsCut : Fault → Prop
  | .unterminatedEscape => True
  | .unterminatedUnicodeEscape => True
  | .invalidEscape digits => '`' ∈ digits.toList
  | _ => False

/-- The same fault, or faults of escapes that are cut off. -/
def Fault.SameUnlessCut (fault other : Fault) : Prop :=
  fault = other ∨ fault.IsCut ∧ other.IsCut

/-- Two outcomes that differ only in faults of escapes that are cut off. -/
abbrev Agrees {α β : Type} (related : α → β → Prop) : Except Fault α → Except Fault β → Prop :=
  OutcomeRel Fault.SameUnlessCut related

section Escapes

variable {content rest : List Char} {fault : Fault}

/-- Characters at the start of a literal, none of which is the backtick that ends it. -/
theorem eq_append_of_not_mem {window tail : List Char}
    (h : content ++ '`' :: rest = window ++ tail) (hwindow : '`' ∉ window) :
    ∃ more, content = window ++ more ∧ tail = more ++ '`' :: rest := by
  rcases List.append_eq_append_iff.mp h with ⟨more, hmore, htail⟩ | ⟨more, hmore, htail⟩
  · cases more with
    | nil => exact ⟨[], by simpa using hmore.symm, htail.symm⟩
    | cons c more =>
        obtain ⟨rfl, -⟩ := List.cons.inj htail
        rw [hmore] at hwindow
        simp at hwindow
  · exact ⟨more, hmore, htail⟩

theorem escapeCode_of_mem {digits : List Char} (h : '`' ∈ digits) :
    escapeCode digits = .error (.invalidEscape (String.ofList digits)) := by
  have hnone : Text.hexValue? digits = none := by
    cases hcode : Text.hexValue? digits with
    | none => rfl
    | some code => exact absurd rfl (Text.ne_of_hexValue? hcode (by decide) '`' h)
  rw [escapeCode, hnone]

theorem isCut_invalidEscape {digits : List Char} (h : '`' ∈ digits) :
    (Fault.invalidEscape (String.ofList digits)).IsCut := by
  rwa [Fault.IsCut, String.toList_ofList]

/-- The second half of a pair of escapes does not reach beyond the literal. -/
theorem lowSurrogate?_eq_none (h : lowSurrogate? (content ++ '`' :: rest) = none)
    (other : List Char) : lowSurrogate? (content ++ '`' :: other) = none := by
  cases hlow : lowSurrogate? (content ++ '`' :: other) with
  | none => rfl
  | some read =>
      obtain ⟨low, after⟩ := read
      obtain ⟨a, b, c, d, htext, hcode, hislow⟩ := lowSurrogate?_eq_some hlow
      have hdigits : '`' ∉ [a, b, c, d] := fun hmem =>
        Text.ne_of_hexValue? hcode (by decide) '`' hmem rfl
      have hwindow : '`' ∉ ['\\', 'u', a, b, c, d] := by simpa using hdigits
      obtain ⟨more, rfl, -⟩ :=
        eq_append_of_not_mem (htext : _ = ['\\', 'u', a, b, c, d] ++ after) hwindow
      simp [lowSurrogate?, hcode, hislow] at h

theorem unicodeEscape_brace_fault {digits after : List Char} (hdigits : '}' ∉ digits)
    (htext : content ++ '`' :: rest = '{' :: (digits ++ '}' :: after))
    (h : escapedChar digits = .error fault) :
    fault.IsCut ∨ ∀ other, unicodeEscape (content ++ '`' :: other) = .error fault := by
  by_cases hcut : '`' ∈ digits
  · rw [escapedChar, escapeCode_of_mem hcut] at h
    cases h
    exact .inl (isCut_invalidEscape hcut)
  · have hwindow : '`' ∉ '{' :: (digits ++ ['}']) := by simpa using hcut
    have hsplit : content ++ '`' :: rest = '{' :: (digits ++ ['}']) ++ after := by
      rw [htext, List.cons_append, List.append_assoc, List.singleton_append]
    obtain ⟨more, rfl, -⟩ := eq_append_of_not_mem hsplit hwindow
    refine .inr fun other => ?_
    rw [List.append_assoc, List.cons_append, List.append_assoc, List.singleton_append,
      unicodeEscape_brace hdigits, h]
    rfl

/-- Two halves that go together are always a character. -/
theorem codePoint_surrogatePair_ne_error {high low : Nat} (hhigh : isHighSurrogate high = true)
    (hlow : isLowSurrogate low = true) : codePoint (surrogatePair high low) ≠ .error fault := by
  simp only [isHighSurrogate, isLowSurrogate, Bool.and_eq_true, decide_eq_true_eq] at hhigh hlow
  rw [codePoint_surrogatePair (by omega) (by omega)]
  intro h
  cases h

theorem unicodeEscape_unit_eq_error_iff {a b c d : Char} {tail : List Char} (hbrace : a ≠ '{') :
    unicodeEscape (a :: b :: c :: d :: tail) = .error fault ↔
      escapeCode [a, b, c, d] = .error fault ∨
        ∃ code, escapeCode [a, b, c, d] = .ok code ∧ codePoint code = .error fault ∧
          (isHighSurrogate code = true → lowSurrogate? tail = none) := by
  rw [unicodeEscape]
  · constructor
    · intro h
      rcases bind_eq_error h with hcode | ⟨code, hcode, h⟩
      · exact .inl hcode
      · refine .inr ⟨code, hcode, ?_⟩
        cases hhigh : isHighSurrogate code with
        | false =>
            rw [hhigh, if_neg Bool.false_ne_true] at h
            dsimp only at h
            rcases bind_eq_error h with hpoint | ⟨_, _, h⟩
            · exact ⟨hpoint, Bool.noConfusion⟩
            · cases h
        | true =>
            rw [hhigh, if_pos rfl] at h
            cases hlow : lowSurrogate? tail with
            | none =>
                rw [hlow] at h
                dsimp only at h
                rcases bind_eq_error h with hpoint | ⟨_, _, h⟩
                · exact ⟨hpoint, fun _ => rfl⟩
                · cases h
            | some read =>
                obtain ⟨low, after⟩ := read
                rw [hlow] at h
                dsimp only at h
                obtain ⟨_, _, _, _, -, -, hislow⟩ := lowSurrogate?_eq_some hlow
                rcases bind_eq_error h with hpoint | ⟨_, _, h⟩
                · exact absurd hpoint (codePoint_surrogatePair_ne_error hhigh hislow)
                · cases h
    · rintro (hcode | ⟨code, hcode, hpoint, hlow⟩)
      · rw [hcode, error_bind]
      · rw [hcode, ok_bind]
        have hnone : (if isHighSurrogate code then lowSurrogate? tail else none) = none := by
          cases hhigh : isHighSurrogate code with
          | false => rfl
          | true => exact hlow hhigh
        rw [hnone]
        dsimp only
        rw [hpoint, error_bind]
  · exact hbrace

theorem unicodeEscape_fault (h : unicodeEscape (content ++ '`' :: rest) = .error fault) :
    fault.IsCut ∨ ∀ other, unicodeEscape (content ++ '`' :: other) = .error fault := by
  have hfault := h
  generalize htext : content ++ '`' :: rest = text at h
  unfold unicodeEscape at h
  split at h
  · next tail =>
      split at h
      · cases h
        exact .inl trivial
      · next close after hdrop =>
          rw [eq_append_of_dropWhile_ne hdrop] at htext
          rcases bind_eq_error h with h | ⟨_, _, h⟩
          · have hdigits : '}' ∉ tail.takeWhile (· ≠ '}') := fun hmem => by
              simpa using List.all_eq_true.mp List.all_takeWhile '}' hmem
            exact unicodeEscape_brace_fault hdigits htext h
          · cases h
  · next a b c d tail hbrace =>
      by_cases hcut : '`' ∈ [a, b, c, d]
      · rw [escapeCode_of_mem hcut] at h
        cases h
        exact .inl (isCut_invalidEscape hcut)
      · obtain ⟨more, rfl, rfl⟩ := eq_append_of_not_mem (htext : _ = [a, b, c, d] ++ tail) hcut
        refine .inr fun other => ?_
        simp only [List.cons_append, List.nil_append] at hfault ⊢
        rw [unicodeEscape_unit_eq_error_iff hbrace] at hfault ⊢
        rcases hfault with hcode | ⟨code, hcode, hpoint, hlow⟩
        · exact .inl hcode
        · exact .inr ⟨code, hcode, hpoint, fun hhigh => lowSurrogate?_eq_none (hlow hhigh) other⟩
  · cases h
    exact .inl trivial

theorem escape_fault (h : escape (content ++ '`' :: rest) = .error fault) :
    fault.IsCut ∨ ∀ other, escape (content ++ '`' :: other) = .error fault := by
  generalize htext : content ++ '`' :: rest = text at h
  unfold escape at h
  split at h
  case h_1 => simp at htext
  case h_8 => split at h <;> cases h
  case h_9 a b tail =>
    rcases bind_eq_error h with hchar | ⟨_, _, h⟩
    · by_cases hcut : '`' ∈ [a, b]
      · rw [escapedChar, escapeCode_of_mem hcut] at hchar
        cases hchar
        exact .inl (isCut_invalidEscape hcut)
      · have hwindow : '`' ∉ ['x', a, b] := by simpa using hcut
        obtain ⟨more, rfl, rfl⟩ := eq_append_of_not_mem (htext : _ = ['x', a, b] ++ tail) hwindow
        refine .inr fun other => ?_
        simp only [List.cons_append, List.nil_append, escape]
        rw [hchar, error_bind]
    · cases h
  case h_10 =>
    cases h
    exact .inl trivial
  case h_11 tail =>
    rcases bind_eq_error h with hunicode | ⟨_, _, h⟩
    · have hwindow : '`' ∉ ['u'] := by decide
      obtain ⟨more, rfl, rfl⟩ := eq_append_of_not_mem (htext : _ = ['u'] ++ tail) hwindow
      refine (unicodeEscape_fault hunicode).imp_right fun hother other => ?_
      simp only [List.cons_append, List.nil_append, escape]
      rw [hother, error_bind]
    · cases h
  all_goals cases h

end Escapes

section Literals

variable {taken rest text : List Char} {fault : Fault}

theorem skipTrivia_suffix (h : skipTrivia .blanks text = .ok rest) : rest <:+ text := by
  cases (skipTrivia_sound h : SkipsTo text rest) with
  | closed _ htext _ =>
      rw [htext]
      exact List.suffix_append _ _
  | commentOpen _ hrest =>
      rw [hrest]
      exact List.nil_suffix

theorem suffix_of_skipTrivia {c : Char} (h : skipTrivia .blanks text = .ok (c :: rest)) :
    rest <:+ text :=
  (List.suffix_cons c rest).trans (skipTrivia_suffix h)

/-- A template literal ends in a backtick. -/
theorem backtick_suffix {frames : List Frame} (hframes : frames.getLast? = some .template)
    (h : skipFrames frames text = .ok rest) : '`' :: rest <:+ text := by
  fun_induction skipFrames frames text with
  | case1 => cases hframes
  | case2 | case7 | case8 | case12 | case13 => cases h
  | case3 outer tail ih =>
      exact (ih hframes h).trans ((List.drop_suffix 1 tail).trans (List.suffix_cons _ _))
  | case4 outer tail ih =>
      cases outer with
      | nil =>
          rw [skipFrames] at h
          cases h
          exact List.suffix_refl _
      | cons frame outer =>
          rw [List.getLast?_cons_cons] at hframes
          exact (ih hframes h).trans (List.suffix_cons _ _)
  | case5 outer tail ih =>
      exact (ih (by simpa [List.getLast?_cons_cons] using hframes) h).trans
        ((List.suffix_cons _ _).trans (List.suffix_cons _ _))
  | case6 outer c tail _ _ _ ih => exact (ih hframes h).trans (List.suffix_cons _ _)
  | case9 text outer close tail htrivia ih =>
      exact (ih (by simpa [List.getLast?_cons_cons] using hframes) h).trans
        (suffix_of_skipTrivia htrivia)
  | case10 text outer close c tail _ htrivia partner _ ih =>
      exact (ih (by simpa [List.getLast?_cons_cons] using hframes) h).trans
        (suffix_of_skipTrivia htrivia)
  | case11 text outer c tail _ htrivia _ _ ih =>
      cases outer with
      | nil => cases hframes
      | cons frame outer =>
          rw [List.getLast?_cons_cons] at hframes
          exact (ih hframes h).trans (suffix_of_skipTrivia htrivia)
  | case14 text outer close c tail _ htrivia _ _ hquote value after hliteral ih =>
      obtain ⟨content, -, rfl⟩ := spelled_of_readLiteral (isQuote_of_string hquote) hliteral
      have hafter : after <:+ content ++ c :: after := ⟨content ++ [c], by simp⟩
      exact ((ih hframes h).trans hafter).trans (suffix_of_skipTrivia htrivia)
  | case15 text outer close c tail _ htrivia _ _ _ ih =>
      exact (ih hframes h).trans (suffix_of_skipTrivia htrivia)

theorem readLiteral_escape_fault {quote : Char} (h : escape text = .error fault) :
    readLiteral quote ('\\' :: text) = .error fault := by
  rw [readLiteral]
  split
  · next found hescape =>
      cases h.symm.trans hescape
      rfl
  · next hescape => cases h.symm.trans hescape

/-- A fault of a template literal is the same whatever stands behind the literal, unless an escape
is cut off. -/
theorem readLiteral_fault (hskip : skipFrames [.template] text = .ok rest)
    (h : readLiteral '`' text = .error fault) :
    fault.IsCut ∨ ∃ taken, taken ≠ [] ∧ text = taken ++ rest ∧
      ∀ other, readLiteral '`' (taken ++ other) = .error fault := by
  fun_induction readLiteral '`' text with
  | case1 =>
      rw [skipFrames] at hskip
      cases hskip
  | case2 tail found hescape =>
      cases h
      obtain ⟨content, hcontent⟩ := backtick_suffix rfl hskip
      cases content with
      | nil => cases hcontent
      | cons d content =>
          obtain ⟨rfl, rfl⟩ := List.cons.inj hcontent
          refine (escape_fault hescape).imp_right fun hother => ?_
          refine ⟨'\\' :: (content ++ ['`']), List.cons_ne_nil _ _, by simp, fun other => ?_⟩
          rw [List.cons_append, List.append_assoc, List.singleton_append]
          exact readLiteral_escape_fault (hother other)
  | case3 tail c after hescape ih =>
      obtain ⟨spelling, hspelling, rfl⟩ := escape_sound hescape
      rw [hspelling.skipFrames_eq] at hskip
      rcases bind_eq_error h with hread | ⟨_, _, h⟩
      · refine (ih hskip hread).imp_right ?_
        rintro ⟨taken, hne, rfl, hother⟩
        refine ⟨'\\' :: (spelling ++ taken), List.cons_ne_nil _ _, by simp, fun other => ?_⟩
        have hescapes : Escapes spelling (taken ++ other).head? c := by
          cases taken with
          | nil => exact absurd rfl hne
          | cons d taken => exact hspelling
        rw [List.cons_append, List.append_assoc, readLiteral_escaped hescapes.escape_eq, hother]
        rfl
      · cases h
  | case4 tail => cases h
  | case5 c tail hbackslash hquote hdollar =>
      cases h
      obtain ⟨content, hcontent⟩ := backtick_suffix rfl hskip
      obtain ⟨-, rfl, hhead⟩ := hdollar
      obtain ⟨more, rfl⟩ := List.head?_eq_some_iff.mp hhead
      have hwindow : '`' ∉ ['$', '{'] := by decide
      obtain ⟨content, rfl, rfl⟩ :=
        eq_append_of_not_mem (hcontent : _ = ['$', '{'] ++ more) hwindow
      refine .inr ⟨'$' :: '{' :: (content ++ ['`']), List.cons_ne_nil _ _, by simp, fun other => ?_⟩
      rw [List.cons_append, List.cons_append, readLiteral]
      · rfl
      · decide
  | case6 c tail hbackslash hquote hplain ih =>
      have hdollar : ¬ (c = '$' ∧ tail.head? = some '{') := fun h => hplain ⟨rfl, h⟩
      rw [skipFrames_plain hbackslash hquote hdollar] at hskip
      rcases bind_eq_error h with hread | ⟨_, _, h⟩
      · refine (ih hskip hread).imp_right ?_
        rintro ⟨taken, hne, rfl, hother⟩
        refine ⟨c :: taken, List.cons_ne_nil _ _, by simp, fun other => ?_⟩
        have hhead : ¬ ('`' = '`' ∧ c = '$' ∧ (taken ++ other).head? = some '{') := by
          cases taken with
          | nil => exact absurd rfl hne
          | cons d taken => exact hplain
        rw [List.cons_append, readLiteral_plain hbackslash hquote _ hhead, hother]
        rfl
      · cases h

theorem readLiteral_fault_append (hskip : skipFrames [.template] (taken ++ rest) = .ok rest)
    (h : readLiteral '`' (taken ++ rest) = .error fault) :
    fault.IsCut ∨ ∀ other, readLiteral '`' (taken ++ other) = .error fault := by
  refine (readLiteral_fault hskip h).imp_right ?_
  rintro ⟨found, -, hfound, hother⟩
  rwa [List.append_cancel_right hfound]

/-- What a literal spells does not depend on what stands behind it. -/
theorem readLiteral_append {quote : Char} {value : List Char} (hquote : isQuote quote = true)
    (h : readLiteral quote (taken ++ rest) = .ok (value, rest)) (other : List Char) :
    readLiteral quote (taken ++ other) = .ok (value, other) := by
  obtain ⟨content, hcontent, htext⟩ := spelled_of_readLiteral hquote h
  have htaken : taken = content ++ [quote] := by
    have happend : taken ++ rest = (content ++ [quote]) ++ rest := by
      rw [htext, List.append_assoc, List.singleton_append]
    exact List.append_cancel_right happend
  rw [htaken, List.append_assoc, List.singleton_append]
  exact hcontent.readLiteral_eq hquote other

/-- A template literal that spells a text ends where it was found to end. -/
theorem readLiteral_final {value final : List Char} (hskip : skipFrames [.template] text = .ok rest)
    (h : readLiteral '`' text = .ok (value, final)) : final = rest := by
  obtain ⟨content, hcontent, rfl⟩ := spelled_of_readLiteral (by rfl : isQuote '`' = true) h
  rw [hcontent.skipFrames_eq, skipFrames] at hskip
  exact Except.ok.inj hskip

theorem readLiteral_template_agrees {other : List Char}
    (hrest : skipFrames [.template] (taken ++ rest) = .ok rest)
    (hother : skipFrames [.template] (taken ++ other) = .ok other) :
    Agrees (fun first second => first.1 = second.1) (readLiteral '`' (taken ++ rest))
      (readLiteral '`' (taken ++ other)) := by
  cases hfirst : readLiteral '`' (taken ++ rest) with
  | ok read =>
      cases readLiteral_final hrest hfirst
      rw [readLiteral_append rfl hfirst other]
      exact .ok rfl
  | error fault =>
      cases hsecond : readLiteral '`' (taken ++ other) with
      | ok read =>
          cases readLiteral_final hother hsecond
          rw [readLiteral_append rfl hsecond rest] at hfirst
          cases hfirst
      | error found =>
          rcases readLiteral_fault_append hrest hfirst with hcut | hlocal
          · rcases readLiteral_fault_append hother hsecond with hfound | hlocal
            · exact .error (.inr ⟨hcut, hfound⟩)
            · cases hfirst.symm.trans (hlocal rest)
              exact .error (.inl rfl)
          · cases hsecond.symm.trans (hlocal other)
            exact .error (.inl rfl)

theorem readToken_eq_literal {c : Char} (h : readToken c text = .ok (.literal, rest)) :
    (isQuote c = true ∧ ∃ value, readLiteral c text = .ok (value, rest)) ∨
      (c = '`' ∧ skipFrames [.template] text = .ok rest) := by
  unfold readToken at h
  split at h
  · next hstring =>
      obtain ⟨⟨value, after⟩, hread, h⟩ := bind_eq_ok h
      cases h
      exact .inl ⟨isQuote_of_string hstring, value, hread⟩
  · split at h
    · next hbacktick =>
        obtain ⟨after, hskip, h⟩ := bind_eq_ok h
        cases h
        exact .inr ⟨hbacktick, hskip⟩
    · split at h <;> cases h

/-- A literal spells the same text whatever stands behind it. If it spells none, both readings have
the same fault, or faults of an escape that is cut off. -/
theorem spelled_agrees {c : Char} {other : List Char}
    (hrest : readToken c (taken ++ rest) = .ok (.literal, rest))
    (hother : readToken c (taken ++ other) = .ok (.literal, other)) :
    Agrees Eq (Lexeme.spelled ⟨.literal, c :: (taken ++ rest)⟩)
      (Lexeme.spelled ⟨.literal, c :: (taken ++ other)⟩) := by
  have hread : Agrees (fun first second => first.1 = second.1) (readLiteral c (taken ++ rest))
      (readLiteral c (taken ++ other)) := by
    rcases readToken_eq_literal hrest with ⟨hquote, value, hvalue⟩ | ⟨rfl, hskip⟩
    · rw [hvalue, readLiteral_append hquote hvalue other]
      exact .ok rfl
    · rcases readToken_eq_literal hother with ⟨hquote, value, hvalue⟩ | ⟨-, hskipOther⟩
      · rw [hvalue, readLiteral_append hquote hvalue rest]
        exact .ok rfl
      · exact readLiteral_template_agrees hskip hskipOther
  simp only [Lexeme.spelled]
  apply hread.bind
  intro first second h
  rw [h]
  exact .ok rfl

end Literals

end FeatureCompiler.Script
