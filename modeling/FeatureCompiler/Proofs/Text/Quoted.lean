import FeatureCompiler.Proofs.Text.Delimited
import FeatureCompiler.Proofs.Text.Hex
import FeatureCompiler.Text.Quoted

/-!
Quoted texts can be told from what is shown of them. A character is shown as itself, by a letter
behind a backslash, or by its code in braces; which of these it is, and where it ends, is seen from
its first two characters. A quote inside of a text is escaped, so the text ends at the first quote
that is not, and no line ends inside of it.
-/

namespace FeatureCompiler.Text

/-- Characters that are shown by a letter behind a backslash, each with its letter. -/
def letterEscapes : List (Char × Char) :=
  [('"', '"'), ('\\', '\\'), ('\x00', '0'), ('\t', 't'), ('\r', 'r'), ('\n', 'n')]

/-- The three ways in which a character is shown. -/
inductive ShownAs (c : Char) : List Char → Prop where
  | letter {letter : Char} : (c, letter) ∈ letterEscapes → ShownAs c ['\\', letter]
  | code : ShownAs c ('\\' :: 'u' :: '{' :: (lowerHex c.toNat ++ ['}']))
  | itself : c ≠ '\\' → c ≠ '"' → c ≠ '\n' → ShownAs c [c]

theorem shownAs_quotedChar (c : Char) : ShownAs c (quotedChar c) := by
  unfold quotedChar
  split
  case h_7 hquote hbackslash _ _ _ hnewline =>
    split
    · exact .code
    · exact .itself hbackslash hquote hnewline
  all_goals exact .letter (by decide)

theorem notMem_lowerHex {c : Char} (hc : hexDigit? c = none) (n : Nat) : c ∉ lowerHex n :=
  fun hmem => ne_of_hexValue? (hexValue?_lowerHex n) hc c hmem rfl

/-- Each character has an escape of its own. -/
theorem eq_of_mem_letterEscapes {c d letter : Char} (hc : (c, letter) ∈ letterEscapes)
    (hd : (d, letter) ∈ letterEscapes) : c = d := by
  have hletters : ∀ first ∈ letterEscapes, ∀ second ∈ letterEscapes,
      first.2 = second.2 → first.1 = second.1 := by decide
  exact hletters _ hc _ hd rfl

theorem letter_ne_u {c letter : Char} (h : (c, letter) ∈ letterEscapes) : letter ≠ 'u' := by
  have hletters : ∀ escape ∈ letterEscapes, escape.2 ≠ 'u' := by decide
  exact hletters _ h

theorem lowerHex_append_inj {n m : Nat} {rest other : List Char}
    (h : lowerHex n ++ '}' :: rest = lowerHex m ++ '}' :: other) : n = m ∧ rest = other := by
  have hdigits (n : Nat) : (lowerHex n).all (· ≠ '}') = true := by
    rw [List.all_eq_true]
    intro c hc
    rw [decide_eq_true_eq]
    rintro rfl
    exact notMem_lowerHex (by decide) n hc
  obtain ⟨hsame, hrest⟩ := append_cons_inj (by decide) (hdigits n) (hdigits m) h
  have hvalue := hexValue?_lowerHex n
  rw [hsame, hexValue?_lowerHex] at hvalue
  exact ⟨(Option.some.inj hvalue).symm, hrest⟩

theorem delimits_quotedChar : Delimits quotedChar := by
  intro a b rest other h
  have hfirst := shownAs_quotedChar a
  have hsecond := shownAs_quotedChar b
  generalize quotedChar a = first, quotedChar b = second at h hfirst hsecond
  cases hfirst with
  | letter hletter =>
      cases hsecond with
      | letter hletter' =>
          obtain ⟨rfl, hrest⟩ := List.cons.inj (List.cons.inj h).2
          exact ⟨eq_of_mem_letterEscapes hletter hletter', hrest⟩
      | code => exact absurd (List.cons.inj (List.cons.inj h).2).1 (letter_ne_u hletter)
      | itself hbackslash => exact absurd (List.cons.inj h).1.symm hbackslash
  | code =>
      cases hsecond with
      | letter hletter' =>
          exact absurd (List.cons.inj (List.cons.inj h).2).1.symm (letter_ne_u hletter')
      | code =>
          simp only [List.cons_append, List.append_assoc, List.cons.injEq, true_and] at h
          obtain ⟨hcode, hrest⟩ := lowerHex_append_inj h
          exact ⟨Char.toNat_inj.mp hcode, hrest⟩
      | itself hbackslash => exact absurd (List.cons.inj h).1.symm hbackslash
  | itself hbackslash =>
      cases hsecond with
      | letter => exact absurd (List.cons.inj h).1 hbackslash
      | code => exact absurd (List.cons.inj h).1 hbackslash
      | itself => exact List.cons.inj h

theorem neverStarts_quotedChar : NeverStarts '"' quotedChar := by
  intro c
  have hshown := shownAs_quotedChar c
  generalize quotedChar c = shown at hshown
  cases hshown with
  | letter => exact ⟨_, _, rfl, by decide⟩
  | code => exact ⟨_, _, rfl, by decide⟩
  | itself _ hquote => exact ⟨_, _, rfl, hquote⟩

/-- Both a text and where it ends can be told from its quoted form. -/
theorem delimits_quoted : Delimits quoted := by
  intro first second rest other h
  exact delimits_quotedChar.flatMap neverStarts_quotedChar (List.cons.inj h).2

theorem newline_notMem_quotedChar (c : Char) : '\n' ∉ quotedChar c := by
  have hshown := shownAs_quotedChar c
  generalize quotedChar c = shown at hshown
  cases hshown with
  | letter hletter =>
      have hletters : ∀ escape ∈ letterEscapes, '\n' ∉ ['\\', escape.2] := by decide
      exact hletters _ hletter
  | code => simp [notMem_lowerHex (by decide : hexDigit? '\n' = none)]
  | itself _ _ hnewline => simp [Ne.symm hnewline]

/-- A quoted text stands in one line. -/
theorem newline_notMem_quoted (text : List Char) : '\n' ∉ quoted text := by
  simp [quoted, newline_notMem_quotedChar]

end FeatureCompiler.Text
