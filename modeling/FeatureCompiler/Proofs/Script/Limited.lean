import FeatureCompiler.Proofs.Script.Lockstep

/-!
Readers of a script that may take only so many rounds. A reader hands one round fewer to everything
that it calls, and to itself when it goes on: literals and templates inside of groups, groups inside
of templates, objects inside of objects. Rounds that are too few leave no outcome at all. A few more
than there are characters are always enough, and then the outcome is that of the reader without a
limit, be it a result or a fault.
-/

namespace FeatureCompiler.Script

/-- The outcome of a reader with a limit, if it came to its end. -/
abbrev Limited (α : Type) : Type := ExceptT Fault Option α

/-- The reader needs more rounds than it has. -/
def stopped {α : Type} : Limited α := ExceptT.mk none

/-- The reader has come to its end. -/
def ended {α : Type} (outcome : Except Fault α) : Limited α := ExceptT.mk (some outcome)

theorem ended_ok_bind {α β : Type} (a : α) (next : α → Limited β) :
    ended (.ok a) >>= next = next a :=
  rfl

/-- What follows a reader has to come to its end only for what the reader found. -/
theorem ended_bind {α β : Type} {outcome : Except Fault α} {next : α → Limited β}
    {other : α → Except Fault β} (h : ∀ a, outcome = .ok a → next a = ended (other a)) :
    ended outcome >>= next = ended (outcome >>= other) := by
  cases outcome with
  | error fault => rfl
  | ok a => exact h a rfl

section Literals

def skipTriviaWithin : Nat → Trivia → List Char → Limited (List Char)
  | 0, _, _ => stopped
  | _ + 1, .blanks, [] => return []
  | rounds + 1, .blanks, '/' :: '/' :: rest => skipTriviaWithin rounds .lineComment rest
  | rounds + 1, .blanks, '/' :: '*' :: rest => skipTriviaWithin rounds .blockComment rest
  | rounds + 1, .blanks, c :: rest =>
      if Text.isBlank c then skipTriviaWithin rounds .blanks rest else return c :: rest
  | _ + 1, .lineComment, [] => return []
  | rounds + 1, .lineComment, c :: rest =>
      skipTriviaWithin rounds (if c = '\n' then .blanks else .lineComment) rest
  | _ + 1, .blockComment, [] => throw .unterminatedComment
  | rounds + 1, .blockComment, '*' :: '/' :: rest => skipTriviaWithin rounds .blanks rest
  | rounds + 1, .blockComment, _ :: rest => skipTriviaWithin rounds .blockComment rest

def readLiteralWithin (quote : Char) : Nat → List Char → Limited (List Char × List Char)
  | 0, _ => stopped
  | _ + 1, [] => throw .unterminatedString
  | rounds + 1, '\\' :: rest => do
      let (c, after) ← ended (escape rest)
      let (value, final) ← readLiteralWithin quote rounds after
      return (c.toList ++ value, final)
  | rounds + 1, c :: rest =>
      if c = quote then return ([], rest)
      else if quote = '`' ∧ c = '$' ∧ rest.head? = some '{' then throw .interpolatedKey
      else do
        let (value, final) ← readLiteralWithin quote rounds rest
        return (c :: value, final)

theorem skipTriviaWithin_eq {rounds : Nat} {mode : Trivia} {text : List Char}
    (h : text.length < rounds) :
    skipTriviaWithin rounds mode text = ended (skipTrivia mode text) := by
  induction rounds generalizing mode text with
  | zero => exact absurd h (Nat.not_lt_zero _)
  | succ rounds ih =>
      fun_cases skipTrivia mode text with
      | case1 | case6 | case8 => rfl
      | case2 | case3 | case7 | case9 =>
          simp only [List.length_cons] at h
          rw [skipTriviaWithin, ih (by omega)]
      | case4 c rest hline hblock hblank =>
          simp only [List.length_cons] at h
          rw [skipTriviaWithin, if_pos hblank, ih (by omega)]
          · exact hline
          · exact hblock
      | case5 c rest hline hblock hblank =>
          rw [skipTriviaWithin, if_neg hblank]
          · rfl
          · exact hline
          · exact hblock
      | case10 c rest hend =>
          simp only [List.length_cons] at h
          rw [skipTriviaWithin, ih (by omega)]
          exact hend

theorem readLiteralWithin_eq {quote : Char} {rounds : Nat} {text : List Char}
    (h : text.length < rounds) :
    readLiteralWithin quote rounds text = ended (readLiteral quote text) := by
  induction rounds generalizing text with
  | zero => exact absurd h (Nat.not_lt_zero _)
  | succ rounds ih =>
      fun_cases readLiteral quote text with
      | case1 => rfl
      | case2 rest fault hescape =>
          rw [readLiteralWithin, hescape]
          rfl
      | case3 rest c after hescape =>
          have hafter := escape_length_lt hescape
          simp only [List.length_cons] at h
          rw [readLiteralWithin, hescape]
          dsimp only [ended_ok_bind]
          rw [ih (by omega)]
          exact ended_bind fun _ _ => rfl
      | case4 rest hescape =>
          rw [readLiteralWithin, if_pos rfl]
          · rfl
          · exact hescape
      | case5 c rest hescape hquote hinterpolated =>
          rw [readLiteralWithin, if_neg hquote, if_pos hinterpolated]
          · rfl
          · exact hescape
      | case6 c rest hescape hquote hinterpolated =>
          simp only [List.length_cons] at h
          rw [readLiteralWithin, if_neg hquote, if_neg hinterpolated, ih (by omega)]
          · exact ended_bind fun _ _ => rfl
          · exact hescape

end Literals

section Nesting

mutual

/-- The text behind a template literal. The substitutions in it are groups. -/
def skipTemplateWithin : Nat → List Char → Limited (List Char)
  | 0, _ => stopped
  | _ + 1, [] => throw .unterminatedTemplate
  | rounds + 1, '\\' :: rest => skipTemplateWithin rounds (rest.drop 1)
  | _ + 1, '`' :: rest => return rest
  | rounds + 1, '$' :: '{' :: rest => do
      let after ← skipGroupWithin rounds [] ('{' :: rest)
      skipTemplateWithin rounds after
  | rounds + 1, _ :: rest => skipTemplateWithin rounds rest

/-- The text behind the bracket that closes the outermost open one. The templates in it are skipped
as a whole. -/
def skipGroupWithin : Nat → List Char → List Char → Limited (List Char)
  | 0, _, _ => stopped
  | rounds + 1, closers, text => do
      match ← skipTriviaWithin rounds .blanks text with
      | [] => throw .unexpectedEnd
      | c :: rest =>
          match closing? c with
          | some close => skipGroupWithin rounds (close :: closers) rest
          | none =>
              if isClosing c then
                match closers with
                | [] => throw (.unbalanced c)
                | close :: outer =>
                    if c = close then
                      if outer.isEmpty then return rest else skipGroupWithin rounds outer rest
                    else throw (.unbalanced c)
              else if c = '\'' ∨ c = '"' then do
                let (_, after) ← readLiteralWithin c rounds rest
                skipGroupWithin rounds closers after
              else if c = '`' then do
                let after ← skipTemplateWithin rounds rest
                skipGroupWithin rounds closers after
              else skipGroupWithin rounds closers rest

end

/-- The text behind the bracket that closes the outermost of some that are open, or of the next
group where none is. -/
def walkClosers : List Char → List Char → Except Fault (List Char)
  | [], text => walkGroup text
  | close :: outer, text => skipFrames ((close :: outer).map .bracket) text

theorem walkClosers_eq (closers text : List Char) :
    walkClosers closers text = skipTrivia .blanks text >>= fun
      | [] => .error .unexpectedEnd
      | c :: rest =>
          match closing? c with
          | some close => walkClosers (close :: closers) rest
          | none =>
              if isClosing c then
                match closers with
                | [] => .error (.unbalanced c)
                | close :: outer =>
                    if c = close then
                      if outer.isEmpty then .ok rest else walkClosers outer rest
                    else .error (.unbalanced c)
              else if c = '\'' ∨ c = '"' then
                readLiteral c rest >>= fun read => walkClosers closers read.2
              else if c = '`' then skipFrames [.template] rest >>= walkClosers closers
              else walkClosers closers rest := by
  cases closers with
  | nil =>
      -- Up to its opening bracket a group is passed over one piece after the other.
      rw [walkClosers]
      cases htrivia : skipTrivia .blanks text with
      | error fault =>
          rw [walkGroup_eq, htrivia]
          rfl
      | ok visible =>
          cases visible with
          | nil =>
              rw [walkGroup_eq, htrivia]
              rfl
          | cons c rest =>
              rw [ok_bind]
              dsimp only
              cases hopening : closing? c with
              | some close => exact walkGroup_opening htrivia hopening
              | none =>
                  rw [walkGroup_other htrivia hopening, passOver, hopening]
                  dsimp only
                  split
                  · rfl
                  · split
                    · cases readLiteral c rest <;> rfl
                    · split <;> rfl
  | cons close outer =>
      -- A template is one more frame on the stack there, and a text to pass over here.
      rw [walkClosers, List.map_cons, skipFrames_bracket]
      apply congrArg (skipTrivia .blanks text).bind
      funext visible
      cases visible with
      | nil => rfl
      | cons c rest =>
          dsimp only
          by_cases hbacktick : c = '`'
          · subst hbacktick
            exact skipFrames_append [.template] (.bracket close :: outer.map .bracket) rest
          · rw [if_neg hbacktick, if_neg hbacktick]
            cases hopening : closing? c with
            | some partner => rfl
            | none =>
                dsimp only
                split
                · cases outer with
                  | nil =>
                      rw [List.map_nil, skipFrames]
                      rfl
                  | cons => rfl
                · rfl

theorem walkGroup_bracket {opening close : Char} (h : closing? opening = some close)
    (rest : List Char) : walkGroup (opening :: rest) = skipFrames [.bracket close] rest := by
  obtain ⟨hblank, hslash⟩ := visible_of_isMark (isMark_of_closing? h).1
  exact walkGroup_opening (skipTrivia_of_visible hblank hslash rest) h

/-- Templates and groups call each other, so what is enough for them is shown for both at once. -/
structure NestingEnds (rounds : Nat) : Prop where
  template {text : List Char} : text.length + 1 < rounds →
    skipTemplateWithin rounds text = ended (skipFrames [.template] text)
  group {closers text : List Char} : text.length + 1 < rounds →
    skipGroupWithin rounds closers text = ended (walkClosers closers text)

namespace NestingEnds

variable {rounds : Nat} {closers text : List Char}

theorem template_succ (hnesting : NestingEnds rounds) (h : text.length < rounds) :
    skipTemplateWithin (rounds + 1) text = ended (skipFrames [.template] text) := by
  generalize hframes : [Frame.template] = frames
  fun_cases skipFrames frames text with
  | case1 => cases hframes
  | case2 outer =>
      rw [skipTemplateWithin]
      rfl
  | case3 outer rest =>
      cases hframes
      simp only [List.length_cons] at h
      rw [skipTemplateWithin, hnesting.template (by simp only [List.length_drop]; omega)]
  | case4 outer rest =>
      cases hframes
      rw [skipTemplateWithin, skipFrames]
      rfl
  | case5 outer rest =>
      cases hframes
      simp only [List.length_cons] at h
      rw [skipTemplateWithin, hnesting.group (by simp only [List.length_cons]; omega), walkClosers,
        walkGroup_bracket rfl]
      refine (ended_bind fun after hafter => hnesting.template ?_).trans ?_
      · have := skipFrames_length_le hafter
        omega
      · exact congrArg ended (skipFrames_append [.bracket '}'] [.template] rest).symm
  | case6 outer c rest hbackslash hbacktick hplain =>
      cases hframes
      simp only [List.length_cons] at h
      rw [skipTemplateWithin, hnesting.template (by omega)]
      · exact hbackslash
      · exact hbacktick
      · exact hplain
  | case7 | case8 | case9 | case10 | case11 | case12 | case13 | case14 | case15 => cases hframes

theorem group_succ (hnesting : NestingEnds rounds) (h : text.length < rounds) :
    skipGroupWithin (rounds + 1) closers text = ended (walkClosers closers text) := by
  rw [skipGroupWithin, walkClosers_eq, skipTriviaWithin_eq h]
  refine ended_bind fun visible htrivia => ?_
  have hvisible := skipTrivia_length_le htrivia
  cases visible with
  | nil => rfl
  | cons c rest =>
      simp only [List.length_cons] at hvisible
      have hshort {after : List Char} (hafter : after.length ≤ rest.length) :
          after.length + 1 < rounds := by omega
      have hrest := hshort (Nat.le_refl _)
      dsimp only
      cases closing? c with
      | some close => exact hnesting.group hrest
      | none =>
          dsimp only
          split
          · cases closers with
            | nil => rfl
            | cons close outer =>
                dsimp only
                split
                · split
                  · rfl
                  · exact hnesting.group hrest
                · rfl
          · split
            · rw [readLiteralWithin_eq (by omega)]
              exact ended_bind fun read hread =>
                hnesting.group (hshort (Nat.le_of_lt (readLiteral_length_lt hread)))
            · split
              · rw [hnesting.template hrest]
                exact ended_bind fun after hafter =>
                  hnesting.group (hshort (skipFrames_length_le hafter))
              · exact hnesting.group hrest

theorem all (rounds : Nat) : NestingEnds rounds := by
  induction rounds with
  | zero => exact ⟨fun h => absurd h (Nat.not_lt_zero _), fun h => absurd h (Nat.not_lt_zero _)⟩
  | succ rounds ih =>
      exact ⟨fun h => ih.template_succ (Nat.lt_of_succ_lt_succ h),
        fun h => ih.group_succ (Nat.lt_of_succ_lt_succ h)⟩

end NestingEnds

end Nesting

section Keys

def passOverWithin (rounds : Nat) (c : Char) (rest : List Char) : Limited (List Char) :=
  match closing? c with
  | some _ => skipGroupWithin rounds [] (c :: rest)
  | none =>
      if isClosing c then throw (.unbalanced c)
      else if c = '\'' ∨ c = '"' then do
        let (_, after) ← readLiteralWithin c rounds rest
        return after
      else if c = '`' then skipTemplateWithin rounds rest
      else return rest

def skipValueWithin : Nat → List Char → Limited (List Char)
  | 0, _ => stopped
  | rounds + 1, text => do
      match ← skipTriviaWithin rounds .blanks text with
      | [] => throw .unexpectedEnd
      | c :: rest =>
          if c = ',' ∨ c = '}' then return c :: rest
          else do
            let after ← passOverWithin rounds c rest
            skipValueWithin rounds after

def readKeyWithin : Nat → List Char → Limited (Option String × List Char)
  | 0, _ => stopped
  | _ + 1, [] => throw .unexpectedEnd
  | rounds + 1, '.' :: '.' :: '.' :: rest => do
      let after ← skipValueWithin rounds rest
      return (none, after)
  | rounds + 1, c :: rest =>
      if isQuote c then do
        let (value, after) ← readLiteralWithin c rounds rest
        return (some (String.ofList value), after)
      else if c = '[' then do
        let after ← skipGroupWithin rounds [] (c :: rest)
        return (none, after)
      else if isWordChar c then
        let name := String.ofList (c :: rest.takeWhile isWordChar)
        if isModifier name then do
          let next ← skipTriviaWithin rounds .blanks (rest.dropWhile isWordChar)
          if endsKeyText next then return (some name, next) else readKeyWithin rounds next
        else return (some name, rest.dropWhile isWordChar)
      else throw (.notAKey c)

theorem passOverWithin_eq {rounds : Nat} {c : Char} {rest : List Char}
    (h : rest.length + 2 < rounds) : passOverWithin rounds c rest = ended (passOver c rest) := by
  rw [passOverWithin, passOver]
  cases hopening : closing? c with
  | some close =>
      dsimp only
      rw [(NestingEnds.all rounds).group (by simp only [List.length_cons]; omega), walkClosers,
        walkGroup_bracket hopening]
  | none =>
      dsimp only
      split
      · rfl
      · split
        · rw [readLiteralWithin_eq (by omega)]
          exact ended_bind fun _ _ => rfl
        · split
          · exact (NestingEnds.all rounds).template (by omega)
          · rfl

theorem skipValueWithin_eq {rounds : Nat} {text : List Char} (h : text.length + 2 < rounds) :
    skipValueWithin rounds text = ended (walkValue text) := by
  induction rounds generalizing text with
  | zero => exact absurd h (Nat.not_lt_zero _)
  | succ rounds ih =>
      rw [skipValueWithin, walkValue_eq, skipTriviaWithin_eq (by omega)]
      refine ended_bind fun visible htrivia => ?_
      have hvisible := skipTrivia_length_le htrivia
      cases visible with
      | nil => rfl
      | cons c rest =>
          simp only [List.length_cons] at hvisible
          dsimp only
          split
          · rfl
          · rw [passOverWithin_eq (by omega)]
            refine ended_bind fun after hafter => ih ?_
            have := passOver_length_le hafter
            omega

/-- Modifiers can follow each other, and each of them takes a round. -/
theorem readKeyWithin_word {rounds : Nat} {c : Char} {rest : List Char}
    (hname : isWordChar c = true) (h : rest.length < rounds)
    (hkey : ∀ next : List Char, next.length ≤ rest.length →
      readKeyWithin rounds next = ended (walkKey next)) :
    readKeyWithin (rounds + 1) (c :: rest) = ended (walkKey (c :: rest)) := by
  obtain ⟨hopening, -, hquote⟩ := plain_of_isWordChar hname
  have hbracket : c ≠ '[' := by
    rintro rfl
    cases hopening
  have hafter : (rest.dropWhile isWordChar).length ≤ rest.length :=
    (List.dropWhile_sublist _).length_le
  rw [readKeyWithin, hquote, if_neg Bool.false_ne_true, if_neg hbracket, if_pos hname,
    walkKey_word hname]
  · dsimp only
    split
    · rw [skipTriviaWithin_eq (by omega)]
      refine ended_bind fun next hnext => ?_
      split
      · rfl
      · exact hkey next (Nat.le_trans (skipTrivia_length_le hnext) hafter)
    · rfl
  · intro _ hdot
    exact absurd hdot (ne_mark_of_isWordChar hname (isMark_of_mem (by decide)))

theorem readKeyWithin_eq {rounds : Nat} {text : List Char} (h : text.length + 2 < rounds) :
    readKeyWithin rounds text = ended (walkKey text) := by
  induction rounds generalizing text with
  | zero => exact absurd h (Nat.not_lt_zero _)
  | succ rounds ih =>
      by_cases hdots : ['.', '.', '.'] <+: text
      · obtain ⟨rest, rfl⟩ := hdots
        simp only [List.cons_append, List.nil_append, List.length_cons] at h ⊢
        rw [walkKey_dots, readKeyWithin, skipValueWithin_eq (by omega)]
        exact ended_bind fun _ _ => rfl
      · cases text with
        | nil =>
            rw [walkKey]
            rfl
        | cons c rest =>
            simp only [List.length_cons] at h
            by_cases hname : isWordChar c = true
            · exact readKeyWithin_word hname (by omega) fun next hnext => ih (by omega)
            · rw [readKeyWithin, if_neg hname]
              · split
                · next hquote =>
                    rw [walkKey_literal hquote, readLiteralWithin_eq (by omega)]
                    exact ended_bind fun _ _ => rfl
                · next hquote =>
                    split
                    · next hbracket =>
                        subst hbracket
                        rw [walkKey_computed,
                          (NestingEnds.all rounds).group (by simp only [List.length_cons]; omega)]
                        exact ended_bind fun _ _ => rfl
                    · next hbracket =>
                        simp only [Bool.not_eq_true] at hname hquote
                        rw [walkKey_notAKey hname hquote hbracket hdots]
                        rfl
              · rintro tail rfl rfl
                exact hdots ⟨tail, rfl⟩

end Keys

section Properties

/-- A reader of values with rounds. -/
abbrev LimitedReader : Type :=
  Nat → Option String → List Char → Limited (Option (List String) × List Char)

def readRestWithin (value : LimitedReader) (rounds : Nat) (key : Option String)
    (text : List Char) : Limited (Option (List String) × List Char) := do
  match ← skipTriviaWithin rounds .blanks text with
  | ':' :: rest => value rounds key rest
  | '(' :: rest => do
      let body ← skipGroupWithin rounds [] ('(' :: rest)
      let after ← skipGroupWithin rounds [] body
      return (none, after)
  | next => return (none, next)

def readPropertyWithin (value : LimitedReader) (rounds : Nat) (text : List Char) :
    Limited (List Property × List Char) := do
  let (key, afterKey) ← readKeyWithin rounds text
  let (hooks, after) ← readRestWithin value rounds key afterKey
  return (key.toList.map fun key => ⟨key, hooks⟩, after)

/-- What comes behind a property. The properties behind a comma are left to another reader. -/
def readOthersWithin (rounds : Nat) (more : List Char → Limited (List Property × List Char))
    (found : List Property) (behind : List Char) : Limited (List Property × List Char) := do
  match ← skipTriviaWithin rounds .blanks behind with
  | ',' :: rest => do
      let (others, final) ← more rest
      return (found ++ others, final)
  | '}' :: rest => return (found, rest)
  | [] => throw .unexpectedEnd
  | c :: _ => throw (.noSeparator c)

def readPropertiesWithin (value : LimitedReader) :
    Nat → List Char → Limited (List Property × List Char)
  | 0, _ => stopped
  | rounds + 1, text => do
      match ← skipTriviaWithin rounds .blanks text with
      | '}' :: rest => return ([], rest)
      | next => do
          let (found, behind) ← readPropertyWithin value rounds next
          readOthersWithin rounds (readPropertiesWithin value rounds) found behind

def skippedWithin : LimitedReader := fun rounds _ text => do
  let rest ← skipValueWithin rounds text
  return (none, rest)

def hookWithin : LimitedReader := fun rounds key text => do
  let next ← skipTriviaWithin rounds .blanks text
  match key.any isHookKey, next with
  | true, '{' :: rest => do
      let (properties, after) ← readPropertiesWithin skippedWithin rounds rest
      return (some (properties.map Property.key), after)
  | _, _ => skippedWithin rounds key next

/-- With enough rounds the same is read as without a limit. -/
def LimitedReader.Ends (limited : LimitedReader) (value : TextReader) : Prop :=
  ∀ {rounds key text}, text.length + 2 < rounds →
    limited rounds key text = ended (value.read key text)

variable {limited : LimitedReader} {value : TextReader} {rounds : Nat} {text : List Char}

theorem readRestWithin_eq (hvalue : limited.Ends value) {key : Option String}
    (h : text.length + 2 < rounds) :
    readRestWithin limited rounds key text = ended (walkRest value key text) := by
  rw [readRestWithin, skipTriviaWithin_eq (by omega)]
  cases htrivia : skipTrivia .blanks text with
  | error fault =>
      rw [walkRest, htrivia]
      rfl
  | ok next =>
      have hnext := skipTrivia_length_le htrivia
      rw [ended_ok_bind]
      split
      · simp only [List.length_cons] at hnext
        rw [walkRest, htrivia]
        exact hvalue (by omega)
      · rw [walkRest, htrivia, (NestingEnds.all rounds).group (by omega)]
        refine ended_bind fun body hbody => ?_
        have := walkGroup_length_lt hbody
        rw [(NestingEnds.all rounds).group (by omega)]
        exact ended_bind fun _ _ => rfl
      · next hcolon hparenthesis =>
          rw [walkRest_other htrivia hcolon hparenthesis]
          rfl

theorem readPropertyWithin_eq (hvalue : limited.Ends value) (h : text.length + 2 < rounds) :
    readPropertyWithin limited rounds text = ended (walkProperty value text) := by
  rw [readPropertyWithin, walkProperty, readKeyWithin_eq h]
  refine ended_bind fun read hread => ?_
  have := walkKey_length_lt hread
  dsimp only
  rw [readRestWithin_eq hvalue (by omega)]
  exact ended_bind fun _ _ => rfl

theorem readOthersWithin_eq {more : List Char → Limited (List Property × List Char)}
    {found : List Property} (h : text.length < rounds)
    (hmore : ∀ rest : List Char, rest.length < text.length →
      more rest = ended (walkProperties value rest)) :
    readOthersWithin rounds more found text = ended (walkOthers value found text) := by
  rw [readOthersWithin, skipTriviaWithin_eq h]
  cases htrivia : skipTrivia .blanks text with
  | error fault =>
      rw [walkOthers, htrivia]
      rfl
  | ok next =>
      have hnext := skipTrivia_length_le htrivia
      rw [ended_ok_bind]
      split
      · rw [walkOthers, htrivia, hmore _ hnext]
        exact ended_bind fun _ _ => rfl
      · rw [walkOthers, htrivia]
        rfl
      · rw [walkOthers, htrivia]
        rfl
      · next hcomma hbrace =>
          rw [walkOthers_other htrivia hcomma hbrace]
          rfl

theorem readPropertiesWithin_eq (hvalue : limited.Ends value) (h : text.length + 3 < rounds) :
    readPropertiesWithin limited rounds text = ended (walkProperties value text) := by
  induction rounds generalizing text with
  | zero => exact absurd h (Nat.not_lt_zero _)
  | succ rounds ih =>
      rw [readPropertiesWithin, skipTriviaWithin_eq (by omega)]
      cases htrivia : skipTrivia .blanks text with
      | error fault =>
          rw [walkProperties_fault htrivia]
          rfl
      | ok next =>
          have hnext := skipTrivia_length_le htrivia
          rw [ended_ok_bind]
          split
          · rw [walkProperties_close htrivia]
            rfl
          · next hopen =>
              have hhead : next.head? ≠ some '}' := by
                intro hhead
                obtain ⟨rest, rfl⟩ := List.head?_eq_some_iff.mp hhead
                exact hopen rest rfl
              rw [walkProperties_open htrivia hhead, readPropertyWithin_eq hvalue (by omega)]
              refine ended_bind fun read hread => ?_
              have := walkProperty_length_lt hread
              exact readOthersWithin_eq (by omega) fun rest hrest => ih (by omega)

theorem skippedWithin_ends : skippedWithin.Ends skippedText := by
  intro rounds key text h
  rw [skippedWithin, skipValueWithin_eq h]
  exact ended_bind fun _ _ => rfl

theorem hookWithin_ends : hookWithin.Ends hookText := by
  intro rounds key text h
  rw [hookWithin, skipTriviaWithin_eq (by omega)]
  cases htrivia : skipTrivia .blanks text with
  | error fault =>
      simp only [hookText, htrivia, skippedText]
      rw [walkValue_eq, htrivia]
      cases key.any isHookKey <;> rfl
  | ok next =>
      have hnext := skipTrivia_length_le htrivia
      have hvalue : walkValue next = walkValue text := by
        rw [walkValue_eq, ← skipTrivia_visible htrivia, ← walkValue_eq]
      rw [ended_ok_bind]
      simp only [hookText, htrivia]
      split
      · next hkey =>
          simp only [List.length_cons] at hnext
          rw [readPropertiesWithin_eq skippedWithin_ends (by omega), hkey]
          exact ended_bind fun _ _ => rfl
      · next hother =>
          rw [skippedWithin_ends (by omega)]
          split
          · next hkey heq =>
              cases heq
              exact absurd rfl (hother _ hkey)
          · simp only [skippedText, hvalue]

end Properties

section Tokens

def readTokenWithin (rounds : Nat) (c : Char) (rest : List Char) : Limited (Token × List Char) :=
  if c = '\'' ∨ c = '"' then do
    let (_, after) ← readLiteralWithin c rounds rest
    return (.literal, after)
  else if c = '`' then do
    let after ← skipTemplateWithin rounds rest
    return (.literal, after)
  else if isWordChar c then
    return (.word (String.ofList (c :: rest.takeWhile isWordChar)), rest.dropWhile isWordChar)
  else return (.mark c, rest)

def lexemesWithin : Nat → List Char → Limited (List Lexeme)
  | 0, _ => stopped
  | rounds + 1, text => do
      match ← skipTriviaWithin rounds .blanks text with
      | [] => return []
      | c :: rest => do
          let (token, after) ← readTokenWithin rounds c rest
          let more ← lexemesWithin rounds after
          return ⟨token, c :: rest⟩ :: more

variable {rounds : Nat} {text : List Char}

theorem readTokenWithin_eq {c : Char} (h : text.length + 1 < rounds) :
    readTokenWithin rounds c text = ended (readToken c text) := by
  rw [readTokenWithin, readToken]
  split
  · rw [readLiteralWithin_eq (by omega)]
    exact ended_bind fun _ _ => rfl
  · split
    · rw [(NestingEnds.all rounds).template h]
      exact ended_bind fun _ _ => rfl
    · split <;> rfl

theorem lexemesWithin_eq (h : text.length + 1 < rounds) :
    lexemesWithin rounds text = ended (lexemes text) := by
  induction rounds generalizing text with
  | zero => exact absurd h (Nat.not_lt_zero _)
  | succ rounds ih =>
      rw [lexemesWithin, lexemes_eq, skipTriviaWithin_eq (by omega)]
      refine ended_bind fun visible htrivia => ?_
      have hvisible := skipTrivia_length_le htrivia
      cases visible with
      | nil => rfl
      | cons c rest =>
          simp only [List.length_cons] at hvisible
          dsimp only
          rw [readTokenWithin_eq (by omega)]
          refine ended_bind fun read hread => ?_
          have := readToken_length_le hread
          rw [ih (by omega)]
          cases lexemes read.2 <;> rfl

end Tokens

/-- So many rounds are enough for every reader that is given this text: it ends as it does without a
limit. -/
structure EndWithin (rounds : Nat) (text : List Char) : Prop where
  trivia (mode : Trivia) : skipTriviaWithin rounds mode text = ended (skipTrivia mode text)
  literal (quote : Char) : readLiteralWithin quote rounds text = ended (readLiteral quote text)
  template : skipTemplateWithin rounds text = ended (skipFrames [.template] text)
  group : skipGroupWithin rounds [] text = ended (walkGroup text)
  value : skipValueWithin rounds text = ended (walkValue text)
  key : readKeyWithin rounds text = ended (walkKey text)
  object : readPropertiesWithin hookWithin rounds text = ended (walkProperties hookText text)
  hooks : readPropertiesWithin skippedWithin rounds text = ended (walkProperties skippedText text)
  tokens : lexemesWithin rounds text = ended (lexemes text)

theorem endWithin {rounds : Nat} {text : List Char} (h : text.length + 4 ≤ rounds) :
    EndWithin rounds text where
  trivia _ := skipTriviaWithin_eq (by omega)
  literal _ := readLiteralWithin_eq (by omega)
  template := (NestingEnds.all rounds).template (by omega)
  group := (NestingEnds.all rounds).group (by omega)
  value := skipValueWithin_eq (by omega)
  key := readKeyWithin_eq (by omega)
  object := readPropertiesWithin_eq hookWithin_ends (by omega)
  hooks := readPropertiesWithin_eq skippedWithin_ends (by omega)
  tokens := lexemesWithin_eq (by omega)

end FeatureCompiler.Script
