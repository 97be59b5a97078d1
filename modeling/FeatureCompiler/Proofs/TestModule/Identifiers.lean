import FeatureCompiler.Proofs.Text.Category
import FeatureCompiler.TestModule.Render

/-!
Keys that stand after a dot in a test module. ECMAScript has an identifier name there, which is made
of letters, and behind the first character of marks, digits and connectors too. A module has a dot
before every key of Alphabetic and numeric characters whose first is Alphabetic. Such a key is no
identifier name if it starts with a mark, if it has a symbol such as a letter in a circle, or if it
goes on with a number that is neither a digit nor a letter, as superscripts and fractions are.
-/

namespace FeatureCompiler

open Text

namespace Text

/-- Code points that can start a name though they are no letters. -/
def otherStartRanges : List (Nat × Nat) :=
  [(0x1885, 0x1886), (0x2118, 0x2118), (0x212e, 0x212e), (0x309b, 0x309c)]

/-- Code points that can go on with a name though their category does not say so. -/
def otherPartRanges : List (Nat × Nat) :=
  [(0xb7, 0xb7), (0x387, 0x387), (0x1369, 0x1371), (0x19da, 0x19da), (0x200c, 0x200d),
   (0x2118, 0x2118), (0x212e, 0x212e), (0x309b, 0x309c), (0x30fb, 0x30fb), (0xff65, 0xff65)]

end Text

/-- Whether an identifier name can start with a character. -/
def isIdentifierStart (c : Char) : Bool :=
  c = '$' || c = '_' || category? c = some .letter || inRanges otherStartRanges c

/-- Whether an identifier name can go on with a character. -/
def isIdentifierPart (c : Char) : Bool :=
  c = '$' || c = '_' || category? c = some .letter || category? c = some .mark ||
    category? c = some .digit || category? c = some .connector || inRanges otherPartRanges c

/-- Whether ECMAScript takes a text for a name after a dot. -/
def isIdentifierName (text : String) : Bool :=
  match text.toList with
  | [] => false
  | c :: rest => isIdentifierStart c && rest.all isIdentifierPart

/-- Marks and symbols, which can be Alphabetic and start no identifier name. -/
def isStrayStart (c : Char) : Bool :=
  (category? c = some .mark && !inRanges otherStartRanges c) || inRanges symbolRanges c

/-- Superscripts, fractions and the like, and symbols, which no identifier name has. -/
def isStrayPart (c : Char) : Bool :=
  (category? c = some .otherNumber && !inRanges otherPartRanges c) || inRanges symbolRanges c

theorem not_other_of_symbol {c : Char} (h : inRanges symbolRanges c = true) :
    inRanges otherStartRanges c = false ∧ inRanges otherPartRanges c = false :=
  ⟨not_inRanges_of_disjoint (by decide) h, not_inRanges_of_disjoint (by decide) h⟩

/-- A character that has a category is no symbol. -/
theorem not_symbol_of_category? {c : Char} {category : Category}
    (h : category? c = some category) : inRanges symbolRanges c = false := by
  rw [← Bool.not_eq_true]
  intro hsymbol
  rw [category?_of_symbol hsymbol] at h
  cases h

/-- No stray character is among the first 128. -/
theorem not_isStray_of_lt {c : Char} (h : c.toNat < 128) :
    isStrayStart c = false ∧ isStrayPart c = false := by
  have hranges : ∀ range ∈ markRanges ++ (otherNumberRanges ++ symbolRanges), 128 ≤ range.1 := by
    decide +kernel
  have hnot := fun hin => Nat.not_le_of_lt h (le_of_inRanges hranges (c := c) hin)
  rw [inRanges_append, inRanges_append] at hnot
  have hmark : category? c ≠ some .mark := fun hcategory =>
    hnot (.inl (inRanges_of_category? hcategory))
  have hnumber : category? c ≠ some .otherNumber := fun hcategory =>
    hnot (.inr (.inl (inRanges_of_category? hcategory)))
  have hsymbol : inRanges symbolRanges c = false := by
    rw [← Bool.not_eq_true]
    exact fun hin => hnot (.inr (.inr hin))
  simp [isStrayStart, isStrayPart, hmark, hnumber, hsymbol]

theorem isIdentifierStart_part_of_sign {c : Char} (h : c = '_' ∨ c = '$') :
    isIdentifierStart c = !isStrayStart c ∧ isIdentifierPart c = !isStrayPart c := by
  have hlow : c.toNat < 128 := by
    rcases h with rfl | rfl <;> decide
  obtain ⟨hstart, hpart⟩ := not_isStray_of_lt hlow
  rw [hstart, hpart]
  rcases h with rfl | rfl <;> exact ⟨rfl, rfl⟩

theorem isIdentifierStart_eq {c : Char} (h : isAlphabetic c = true ∨ c = '_' ∨ c = '$') :
    isIdentifierStart c = !isStrayStart c := by
  by_cases hsign : c = '_' ∨ c = '$'
  · exact (isIdentifierStart_part_of_sign hsign).1
  · obtain ⟨hunderscore, hdollar⟩ := not_or.mp hsign
    rcases category?_of_isAlphabetic (h.resolve_right hsign) with hletter | hmark | hsymbol
    · simp [isIdentifierStart, isStrayStart, hletter, not_symbol_of_category? hletter]
    · simp [isIdentifierStart, isStrayStart, hdollar, hunderscore, hmark,
        not_symbol_of_category? hmark]
    · simp [isIdentifierStart, isStrayStart, hdollar, hunderscore, hsymbol,
        category?_of_symbol hsymbol, not_other_of_symbol hsymbol]

theorem isIdentifierPart_eq {c : Char}
    (h : isAlphabetic c = true ∨ isNumeric c = true ∨ c = '_' ∨ c = '$') :
    isIdentifierPart c = !isStrayPart c := by
  by_cases hsign : c = '_' ∨ c = '$'
  · exact (isIdentifierStart_part_of_sign hsign).2
  · obtain ⟨hunderscore, hdollar⟩ := not_or.mp hsign
    rcases h with halphabetic | hnumeric | hother
    · rcases category?_of_isAlphabetic halphabetic with hletter | hmark | hsymbol
      · simp [isIdentifierPart, isStrayPart, hletter, not_symbol_of_category? hletter]
      · simp [isIdentifierPart, isStrayPart, hmark, not_symbol_of_category? hmark]
      · simp [isIdentifierPart, isStrayPart, hdollar, hunderscore, hsymbol,
          category?_of_symbol hsymbol, not_other_of_symbol hsymbol]
    · rcases category?_of_isNumeric hnumeric with hletter | hdigit | hnumber
      · simp [isIdentifierPart, isStrayPart, hletter, not_symbol_of_category? hletter]
      · simp [isIdentifierPart, isStrayPart, hdigit, not_symbol_of_category? hdigit]
      · simp [isIdentifierPart, isStrayPart, hdollar, hunderscore, hnumber,
          not_symbol_of_category? hnumber]
    · exact absurd hother hsign

namespace TestModule

theorem isIdentifier_iff {key : String} :
    isIdentifier key = true ↔
      ∃ c rest, key.toList = c :: rest ∧ (isAlphabetic c = true ∨ c = '_' ∨ c = '$') ∧
        ∀ d ∈ rest, isAlphabetic d = true ∨ isNumeric d = true ∨ d = '_' ∨ d = '$' := by
  unfold isIdentifier
  cases key.toList with
  | nil => simp
  | cons c rest =>
      simp only [Script.isWordChar, Bool.and_eq_true, Bool.or_eq_true, decide_eq_true_eq,
        List.all_eq_true, or_assoc]
      constructor
      · rintro ⟨hfirst, hrest⟩
        exact ⟨c, rest, rfl, hfirst, hrest⟩
      · rintro ⟨_, _, hsame, hfirst, hrest⟩
        cases hsame
        exact ⟨hfirst, hrest⟩

theorem isIdentifierName_iff_of_isIdentifier {key : String} (h : isIdentifier key = true) :
    isIdentifierName key = true ↔
      (∀ c ∈ key.toList.head?, isStrayStart c = false) ∧
        ∀ c ∈ key.toList.tail, isStrayPart c = false := by
  obtain ⟨c, rest, hkey, hfirst, hrest⟩ := isIdentifier_iff.mp h
  have hparts : (∀ d ∈ rest, isIdentifierPart d = true) ↔ ∀ d ∈ rest, isStrayPart d = false := by
    refine forall₂_congr fun d hd => ?_
    rw [isIdentifierPart_eq (hrest d hd), Bool.not_eq_true']
  simp [isIdentifierName, hkey, isIdentifierStart_eq hfirst, hparts]

/-- A bracket instead of the dot shows in the expression. -/
theorem calleeExpression_eq_dotted_iff (kind : HookKind) (key : String) :
    calleeExpression (.hook kind key) = kind.key ++ "." ++ key ↔ isIdentifier key = true := by
  rw [calleeExpression]
  split
  · next hkey => exact iff_of_true rfl hkey
  · next hkey =>
      refine iff_of_false (fun hsame => ?_) hkey
      have hchars := congrArg String.toList hsame
      simp only [String.toList_append, List.append_assoc, List.append_cancel_left_eq] at hchars
      cases hchars

/-- A hook is named after a dot exactly if its key is made of Alphabetic and numeric characters,
dollar signs and underscores, and starts with no number. Such a key is an identifier name exactly if
no stray character stands in it. Characters among the first 128 are never stray. -/
theorem dotted_key_isIdentifierName_iff (kind : HookKind) (key : String) :
    (calleeExpression (.hook kind key) = kind.key ++ "." ++ key ↔
      ∃ c rest, key.toList = c :: rest ∧ (isAlphabetic c = true ∨ c = '_' ∨ c = '$') ∧
        ∀ d ∈ rest, isAlphabetic d = true ∨ isNumeric d = true ∨ d = '_' ∨ d = '$') ∧
    (calleeExpression (.hook kind key) = kind.key ++ "." ++ key →
      (isIdentifierName key = true ↔
        (∀ c ∈ key.toList.head?, isStrayStart c = false) ∧
          ∀ c ∈ key.toList.tail, isStrayPart c = false)) ∧
    (calleeExpression (.hook kind key) = kind.key ++ "." ++ key →
      (∀ c ∈ key.toList, c.toNat < 128) → isIdentifierName key = true) := by
  rw [calleeExpression_eq_dotted_iff]
  refine ⟨isIdentifier_iff, isIdentifierName_iff_of_isIdentifier, fun hdotted hascii => ?_⟩
  rw [isIdentifierName_iff_of_isIdentifier hdotted]
  constructor
  · intro c hc
    exact (not_isStray_of_lt (hascii c (List.mem_of_mem_head? hc))).1
  · intro c hc
    exact (not_isStray_of_lt (hascii c (List.mem_of_mem_tail hc))).2

/-- A superscript, a letter in a circle and a mark, each after a dot where no name has it. -/
theorem dotted_keys_no_identifierNames :
    calleeExpression (.hook .before "a\u00b2") = "before.a\u00b2" ∧
      isIdentifierName "a\u00b2" = false ∧
    calleeExpression (.hook .before "\u24d0") = "before.\u24d0" ∧
      isIdentifierName "\u24d0" = false ∧
    calleeExpression (.hook .after "\u0345") = "after.\u0345" ∧
      isIdentifierName "\u0345" = false := by
  decide +kernel

end TestModule

end FeatureCompiler
