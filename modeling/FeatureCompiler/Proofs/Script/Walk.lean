import FeatureCompiler.Proofs.Script.Code

/-!
The keys of an object literal, read off the characters of a script instead of its tokens. Blanks and
comments are skipped before each character that is looked at. A literal and a group in brackets are
passed over as a whole; everything else, words included, goes by one character at a time.
-/

namespace FeatureCompiler.Script

/-- The text behind the literal or the group in brackets that `c` opens, or behind `c` if it opens
nothing. -/
def passOver (c : Char) (rest : List Char) : Except Fault (List Char) :=
  match closing? c with
  | some close => skipFrames [.bracket close] rest
  | none =>
      if isClosing c then .error (.unbalanced c)
      else if c = '\'' ∨ c = '"' then do
        let (_, after) ← readLiteral c rest
        return after
      else if c = '`' then skipFrames [.template] rest
      else .ok rest

theorem passOver_length_le {c : Char} {rest after : List Char} (h : passOver c rest = .ok after) :
    after.length ≤ rest.length := by
  unfold passOver at h
  split at h
  · exact skipFrames_length_le h
  · split at h
    · cases h
    · split at h
      · obtain ⟨_, hliteral, h⟩ := bind_eq_ok h
        cases h
        exact Nat.le_of_lt (readLiteral_length_lt hliteral)
      · split at h
        · exact skipFrames_length_le h
        · cases h
          exact Nat.le_refl _

/-- The text behind the next group in brackets. -/
def walkGroup (text : List Char) : Except Fault (List Char) :=
  match _htrivia : skipTrivia .blanks text with
  | .error fault => .error fault
  | .ok [] => .error .unexpectedEnd
  | .ok (c :: rest) =>
      match _hpass : passOver c rest with
      | .error fault => .error fault
      | .ok after => if (closing? c).isSome then .ok after else walkGroup after
termination_by text.length
decreasing_by
  have := skipTrivia_length_le _htrivia
  have := passOver_length_le _hpass
  simp only [List.length_cons] at *
  omega

/-- The text from the comma or brace on that ends a value. -/
def walkValue (text : List Char) : Except Fault (List Char) :=
  match _htrivia : skipTrivia .blanks text with
  | .error fault => .error fault
  | .ok [] => .error .unexpectedEnd
  | .ok (c :: rest) =>
      if c = ',' ∨ c = '}' then .ok (c :: rest)
      else
        match _hpass : passOver c rest with
        | .error fault => .error fault
        | .ok after => walkValue after
termination_by text.length
decreasing_by
  have := skipTrivia_length_le _htrivia
  have := passOver_length_le _hpass
  simp only [List.length_cons] at *
  omega

theorem walkGroup_length_lt {text rest : List Char} (h : walkGroup text = .ok rest) :
    rest.length < text.length := by
  fun_induction walkGroup text with
  | case1 | case2 | case3 => cases h
  | case4 _ _ _ htrivia _ hpass =>
      cases h
      have := skipTrivia_length_le htrivia
      have := passOver_length_le hpass
      simp only [List.length_cons] at *
      omega
  | case5 _ _ _ htrivia _ hpass _ ih =>
      have := ih h
      have := skipTrivia_length_le htrivia
      have := passOver_length_le hpass
      simp only [List.length_cons] at *
      omega

theorem walkValue_length_le {text rest : List Char} (h : walkValue text = .ok rest) :
    rest.length ≤ text.length := by
  fun_induction walkValue text with
  | case1 | case2 | case4 => cases h
  | case3 _ _ _ htrivia =>
      cases h
      exact skipTrivia_length_le htrivia
  | case5 _ _ _ htrivia _ _ hpass ih =>
      have := ih h
      have := skipTrivia_length_le htrivia
      have := passOver_length_le hpass
      simp only [List.length_cons] at *
      omega

/-- Whether a word before this text is a key and not a modifier of the key that follows. -/
def endsKeyText : List Char → Bool
  | c :: _ => c = ':' || c = '(' || c = ',' || c = '}'
  | [] => false

/-- A property key, if it is a plain one, and the text after it. The text starts with the key, with
neither blanks nor comments before it. -/
def walkKey (text : List Char) : Except Fault (Option String × List Char) :=
  match text with
  | [] => .error .unexpectedEnd
  | '.' :: '.' :: '.' :: rest => do
      let after ← walkValue rest
      return (none, after)
  | c :: rest =>
      if isQuote c then do
        let (value, after) ← readLiteral c rest
        return (some (String.ofList value), after)
      else if c = '[' then do
        let after ← walkGroup (c :: rest)
        return (none, after)
      else if isWordChar c then
        let name := String.ofList (c :: rest.takeWhile isWordChar)
        if isModifier name then
          match _htrivia : skipTrivia .blanks (rest.dropWhile isWordChar) with
          | .error fault => .error fault
          | .ok next => if endsKeyText next then .ok (some name, next) else walkKey next
        else .ok (some name, rest.dropWhile isWordChar)
      else .error (.notAKey c)
termination_by text.length
decreasing_by
  have := skipTrivia_length_le _htrivia
  have := (List.dropWhile_sublist (l := rest) (p := isWordChar)).length_le
  simp only [List.length_cons]
  omega

theorem walkKey_length_lt {text rest : List Char} {key : Option String}
    (h : walkKey text = .ok (key, rest)) : rest.length < text.length := by
  have hword (text : List Char) : (text.dropWhile isWordChar).length ≤ text.length :=
    (List.dropWhile_sublist _).length_le
  fun_induction walkKey text with
  | case1 | case5 | case9 => cases h
  | case2 =>
      obtain ⟨_, hvalue, h⟩ := bind_eq_ok h
      cases h
      have := walkValue_length_le hvalue
      simp only [List.length_cons]
      omega
  | case3 =>
      obtain ⟨_, hliteral, h⟩ := bind_eq_ok h
      cases h
      have := readLiteral_length_lt hliteral
      simp only [List.length_cons]
      omega
  | case4 =>
      obtain ⟨_, hgroup, h⟩ := bind_eq_ok h
      cases h
      exact walkGroup_length_lt hgroup
  | case6 _ text _ _ _ _ _ _ _ htrivia =>
      cases h
      have := skipTrivia_length_le htrivia
      have := hword text
      simp only [List.length_cons]
      omega
  | case7 _ text _ _ _ _ _ _ _ htrivia _ ih =>
      have := ih h
      have := skipTrivia_length_le htrivia
      have := hword text
      simp only [List.length_cons]
      omega
  | case8 _ text =>
      cases h
      have := hword text
      simp only [List.length_cons]
      omega

/-- A way to read what stands after the colon of a property. It returns the keys of hooks, if it
looks for any, and never puts characters back. -/
structure TextReader where
  read : Option String → List Char → Except Fault (Option (List String) × List Char)
  length_le : ∀ {key text hooks rest},
    read key text = .ok (hooks, rest) → rest.length ≤ text.length

/-- What follows the key of a property: a colon and a value, the parameters and body of a method,
or nothing. -/
def walkRest (value : TextReader) (key : Option String) (text : List Char) :
    Except Fault (Option (List String) × List Char) := do
  match ← skipTrivia .blanks text with
  | ':' :: rest => value.read key rest
  | '(' :: rest => do
      let body ← walkGroup ('(' :: rest)
      let after ← walkGroup body
      return (none, after)
  | next => return (none, next)

theorem walkRest_length_le {value : TextReader} {key : Option String} {text rest : List Char}
    {hooks : Option (List String)} (h : walkRest value key text = .ok (hooks, rest)) :
    rest.length ≤ text.length := by
  obtain ⟨next, htrivia, h⟩ := bind_eq_ok h
  have hnext := skipTrivia_length_le htrivia
  split at h
  · have := value.length_le h
    simp only [List.length_cons] at hnext
    omega
  · obtain ⟨body, hparameters, h⟩ := bind_eq_ok h
    obtain ⟨after, hbody, h⟩ := bind_eq_ok h
    cases h
    have := walkGroup_length_lt hparameters
    have := walkGroup_length_lt hbody
    omega
  · cases h
    exact hnext

/-- One property, and the text behind it. -/
def walkProperty (value : TextReader) (text : List Char) :
    Except Fault (List Property × List Char) := do
  let (key, afterKey) ← walkKey text
  let (hooks, after) ← walkRest value key afterKey
  return (key.toList.map fun key => ⟨key, hooks⟩, after)

theorem walkProperty_length_lt {value : TextReader} {text rest : List Char}
    {found : List Property} (h : walkProperty value text = .ok (found, rest)) :
    rest.length < text.length := by
  obtain ⟨⟨key, afterKey⟩, hkey, h⟩ := bind_eq_ok h
  obtain ⟨⟨hooks, after⟩, hrest, h⟩ := bind_eq_ok h
  cases h
  exact Nat.lt_of_le_of_lt (walkRest_length_le hrest) (walkKey_length_lt hkey)

/-- The properties of an object literal behind its opening brace, and the text behind its closing
one. -/
def walkProperties (value : TextReader) (text : List Char) :
    Except Fault (List Property × List Char) :=
  match _htrivia : skipTrivia .blanks text with
  | .error fault => .error fault
  | .ok ('}' :: rest) => .ok ([], rest)
  | .ok next =>
      match _hproperty : walkProperty value next with
      | .error fault => .error fault
      | .ok (found, behind) =>
          match _hbehind : skipTrivia .blanks behind with
          | .error fault => .error fault
          | .ok (',' :: rest) => do
              let (more, final) ← walkProperties value rest
              return (found ++ more, final)
          | .ok ('}' :: rest) => .ok (found, rest)
          | .ok [] => .error .unexpectedEnd
          | .ok (c :: _) => .error (.noSeparator c)
termination_by text.length
decreasing_by
  have := skipTrivia_length_le _htrivia
  have := walkProperty_length_lt _hproperty
  have := skipTrivia_length_le _hbehind
  simp only [List.length_cons] at *
  omega

theorem walkProperties_length_lt {value : TextReader} {text rest : List Char}
    {properties : List Property} (h : walkProperties value text = .ok (properties, rest)) :
    rest.length < text.length := by
  fun_induction walkProperties value text generalizing properties rest with
  | case1 | case3 | case4 | case7 | case8 => cases h
  | case2 _ _ htrivia =>
      cases h
      have := skipTrivia_length_le htrivia
      simp only [List.length_cons] at this
      omega
  | case5 _ _ _ htrivia _ _ hproperty _ hbehind ih =>
      obtain ⟨_, hmore, h⟩ := bind_eq_ok h
      cases h
      have := skipTrivia_length_le htrivia
      have := walkProperty_length_lt hproperty
      have := skipTrivia_length_le hbehind
      have := ih hmore
      simp only [List.length_cons] at *
      omega
  | case6 _ _ _ htrivia _ _ hproperty _ hbehind =>
      cases h
      have := skipTrivia_length_le htrivia
      have := walkProperty_length_lt hproperty
      have := skipTrivia_length_le hbehind
      simp only [List.length_cons] at *
      omega

/-- Values are passed over. -/
def skippedText : TextReader where
  read _ text := do
    let rest ← walkValue text
    return (none, rest)
  length_le h := by
    obtain ⟨_, hskip, h⟩ := bind_eq_ok h
    cases h
    exact walkValue_length_le hskip

/-- Object literals under a hook key are read for their keys, all other values passed over. -/
def hookText : TextReader where
  read key text :=
    match key.any isHookKey, skipTrivia .blanks text with
    | true, .ok ('{' :: rest) => do
        let (properties, after) ← walkProperties skippedText rest
        return (some (properties.map Property.key), after)
    | _, _ => skippedText.read key text
  length_le h := by
    split at h
    · next htrivia =>
        obtain ⟨_, hproperties, h⟩ := bind_eq_ok h
        cases h
        have := walkProperties_length_lt hproperties
        have := skipTrivia_length_le htrivia
        simp only [List.length_cons] at *
        omega
    · exact skippedText.length_le h

/-- The properties of the object literal whose opening brace is the first character. -/
def walkObject (text : List Char) : Except Fault (List Property × List Char) :=
  walkProperties hookText (text.drop 1)

section Characters

variable {c : Char} {text rest : List Char}

theorem passOver_plain (hopening : closing? c = none) (hclosing : isClosing c = false)
    (hquote : isQuote c = false) : passOver c rest = .ok rest := by
  obtain ⟨hstring, hbacktick⟩ := ne_of_not_isQuote hquote
  simp only [passOver, hopening, hclosing, Bool.false_eq_true, if_false, if_neg hstring,
    if_neg hbacktick]

theorem passOver_opening {close : Char} (h : closing? c = some close) :
    passOver c rest = skipFrames [.bracket close] rest := by
  rw [passOver, h]

theorem passOver_closing (hopening : closing? c = none) (hclosing : isClosing c = true) :
    passOver c rest = .error (.unbalanced c) := by
  simp only [passOver, hopening, hclosing, if_true]

/-- What passes over any character of a word passes over the whole word. -/
theorem eq_dropWhile_isWordChar {α : Type} {read : List Char → α}
    (h : ∀ c rest, isWordChar c = true → read (c :: rest) = read rest) (text : List Char) :
    read (text.dropWhile isWordChar) = read text := by
  induction text with
  | nil => rfl
  | cons c text ih =>
      by_cases hc : isWordChar c = true
      · rw [List.dropWhile_cons_of_pos hc, ih, h c text hc]
      · rw [List.dropWhile_cons_of_neg hc]

theorem walkGroup_eq (text : List Char) :
    walkGroup text = (skipTrivia .blanks text).bind fun
      | [] => .error .unexpectedEnd
      | c :: rest => (passOver c rest).bind fun after =>
          if (closing? c).isSome then .ok after else walkGroup after := by
  rw [walkGroup]
  split
  · next htrivia => rw [htrivia]; rfl
  · next htrivia => rw [htrivia]; rfl
  · next c rest htrivia =>
      simp only [htrivia, Except.bind]
      split
      · next hpass => rw [hpass]
      · next hpass => rw [hpass]

theorem walkValue_eq (text : List Char) :
    walkValue text = (skipTrivia .blanks text).bind fun
      | [] => .error .unexpectedEnd
      | c :: rest =>
          if c = ',' ∨ c = '}' then .ok (c :: rest)
          else (passOver c rest).bind walkValue := by
  rw [walkValue]
  split
  · next htrivia => rw [htrivia]; rfl
  · next htrivia => rw [htrivia]; rfl
  · next c rest htrivia =>
      simp only [htrivia, Except.bind]
      split
      · rfl
      · split
        · next hpass => rw [hpass]
        · next hpass => rw [hpass]

theorem walkGroup_opening {close : Char} (htrivia : skipTrivia .blanks text = .ok (c :: rest))
    (hopening : closing? c = some close) : walkGroup text = skipFrames [.bracket close] rest := by
  rw [walkGroup_eq, htrivia, ← passOver_opening hopening]
  simp only [Except.bind, hopening, Option.isSome_some, if_true]
  cases passOver c rest <;> rfl

theorem walkGroup_other (htrivia : skipTrivia .blanks text = .ok (c :: rest))
    (hopening : closing? c = none) : walkGroup text = passOver c rest >>= walkGroup := by
  rw [walkGroup_eq, htrivia]
  simp only [Except.bind, hopening, Option.isSome_none, Bool.false_eq_true, if_false]
  rfl

theorem walkValue_other (htrivia : skipTrivia .blanks text = .ok (c :: rest))
    (hends : ¬ (c = ',' ∨ c = '}')) : walkValue text = passOver c rest >>= walkValue := by
  rw [walkValue_eq, htrivia]
  simp only [Except.bind, if_neg hends]
  rfl

theorem walkGroup_wordChar (hc : isWordChar c = true) : walkGroup (c :: rest) = walkGroup rest := by
  obtain ⟨hblank, hslash⟩ := visible_of_isWordChar hc
  obtain ⟨hopening, hclosing, hquote⟩ := plain_of_isWordChar hc
  rw [walkGroup_other (skipTrivia_of_visible hblank hslash rest) hopening,
    passOver_plain hopening hclosing hquote, ok_bind]

theorem ne_mark_of_isWordChar {mark : Char} (hc : isWordChar c = true)
    (hmark : isMark mark = true) : c ≠ mark :=
  ne_of_isWordChar hc (not_isWordChar_of_isMark hmark)

theorem not_ends_of_isWordChar (hc : isWordChar c = true) : ¬ (c = ',' ∨ c = '}') := by
  rintro (hcomma | hbrace)
  · exact ne_mark_of_isWordChar hc (isMark_of_mem (by decide)) hcomma
  · exact ne_mark_of_isWordChar hc (isMark_of_mem (by decide)) hbrace

theorem walkValue_wordChar (hc : isWordChar c = true) : walkValue (c :: rest) = walkValue rest := by
  obtain ⟨hblank, hslash⟩ := visible_of_isWordChar hc
  obtain ⟨hopening, hclosing, hquote⟩ := plain_of_isWordChar hc
  rw [walkValue_other (skipTrivia_of_visible hblank hslash rest) (not_ends_of_isWordChar hc),
    passOver_plain hopening hclosing hquote, ok_bind]

end Characters

section Keys

variable {c : Char} {rest : List Char}

theorem walkKey_literal (hquote : isQuote c = true) :
    walkKey (c :: rest) = readLiteral c rest >>= fun read =>
      .ok (some (String.ofList read.1), read.2) := by
  rw [walkKey, if_pos hquote]
  · rfl
  · rintro _ rfl
    cases hquote

theorem walkKey_dots :
    walkKey ('.' :: '.' :: '.' :: rest) = walkValue rest >>= fun after => .ok (none, after) := by
  rw [walkKey]
  rfl

theorem walkKey_computed :
    walkKey ('[' :: rest) = walkGroup ('[' :: rest) >>= fun after => .ok (none, after) := by
  rw [walkKey, if_neg (by decide), if_pos rfl]
  · rfl
  · rintro _ ⟨⟩

theorem walkKey_notAKey (hword : isWordChar c = false) (hquote : isQuote c = false)
    (hbracket : c ≠ '[') (hdots : ¬ ['.', '.', '.'] <+: c :: rest) :
    walkKey (c :: rest) = .error (.notAKey c) := by
  rw [walkKey]
  · simp [hword, hquote, hbracket]
  · rintro tail rfl rfl
    exact hdots ⟨tail, rfl⟩

theorem walkKey_word (hword : isWordChar c = true) :
    walkKey (c :: rest) =
      if isModifier (String.ofList (c :: rest.takeWhile isWordChar)) then
        skipTrivia .blanks (rest.dropWhile isWordChar) >>= fun next =>
          if endsKeyText next then
            .ok (some (String.ofList (c :: rest.takeWhile isWordChar)), next)
          else walkKey next
      else
        .ok (some (String.ofList (c :: rest.takeWhile isWordChar)),
          rest.dropWhile isWordChar) := by
  obtain ⟨hopening, hclosing, hquote⟩ := plain_of_isWordChar hword
  have hbracket : c ≠ '[' := by
    rintro rfl
    cases hopening
  rw [walkKey, hquote, if_neg Bool.false_ne_true, if_neg hbracket, if_pos hword]
  · dsimp only
    split
    · split
      · next htrivia =>
          rw [htrivia]
          rfl
      · next htrivia => rw [htrivia, ok_bind]
    · rfl
  · intro _ hdot
    exact absurd hdot (ne_mark_of_isWordChar hword (isMark_of_mem (by decide)))

end Keys

section Properties

variable {walker : TextReader} {text next rest : List Char}

/-- What comes behind a property: a comma and more properties, or the end of the object. -/
def walkOthers (walker : TextReader) (found : List Property) (behind : List Char) :
    Except Fault (List Property × List Char) := do
  match ← skipTrivia .blanks behind with
  | ',' :: rest => do
      let (more, final) ← walkProperties walker rest
      return (found ++ more, final)
  | '}' :: rest => .ok (found, rest)
  | [] => .error .unexpectedEnd
  | c :: _ => .error (.noSeparator c)

theorem walkRest_other {key : Option String} (htrivia : skipTrivia .blanks text = .ok next)
    (hcolon : ∀ rest, next ≠ ':' :: rest) (hparenthesis : ∀ rest, next ≠ '(' :: rest) :
    walkRest walker key text = .ok (none, next) := by
  rw [walkRest, htrivia, ok_bind]
  split
  · exact absurd rfl (hcolon _)
  · exact absurd rfl (hparenthesis _)
  · rfl

theorem walkOthers_other {found : List Property} {c : Char}
    (htrivia : skipTrivia .blanks text = .ok (c :: rest)) (hcomma : c ≠ ',') (hbrace : c ≠ '}') :
    walkOthers walker found text = .error (.noSeparator c) := by
  rw [walkOthers, htrivia, ok_bind]
  split
  · next heq => exact absurd (List.cons.inj heq).1 hcomma
  · next heq => exact absurd (List.cons.inj heq).1 hbrace
  · next heq => cases heq
  · next heq => rw [(List.cons.inj heq).1]

theorem walkProperties_fault {fault : Fault} (htrivia : skipTrivia .blanks text = .error fault) :
    walkProperties walker text = .error fault := by
  rw [walkProperties]
  split
  · next h =>
      cases htrivia.symm.trans h
      rfl
  · next h => cases htrivia.symm.trans h
  · next h => cases htrivia.symm.trans h

theorem walkProperties_close (htrivia : skipTrivia .blanks text = .ok ('}' :: rest)) :
    walkProperties walker text = .ok ([], rest) := by
  rw [walkProperties]
  split
  · next h => cases htrivia.symm.trans h
  · next h =>
      cases htrivia.symm.trans h
      rfl
  · next hopen h =>
      cases htrivia.symm.trans h
      exact absurd rfl (hopen rest)

theorem walkProperties_open (htrivia : skipTrivia .blanks text = .ok next)
    (hopen : next.head? ≠ some '}') :
    walkProperties walker text =
      (walkProperty walker next >>= fun read => walkOthers walker read.1 read.2) := by
  rw [walkProperties]
  split
  · next h => cases htrivia.symm.trans h
  · next h =>
      cases htrivia.symm.trans h
      exact absurd rfl hopen
  · next h =>
      cases htrivia.symm.trans h
      cases walkProperty walker next with
      | error fault => rfl
      | ok read =>
          obtain ⟨found, behind⟩ := read
          rw [ok_bind, walkOthers]
          dsimp only
          split
          · next hbehind =>
              rw [hbehind]
              rfl
          · next hbehind =>
              rw [hbehind]
              rfl
          · next hbehind =>
              rw [hbehind]
              rfl
          · next hbehind =>
              rw [hbehind]
              rfl
          · next hcomma hbrace hbehind =>
              rw [← walkOthers_other hbehind hcomma hbrace, walkOthers]

end Properties

end FeatureCompiler.Script
