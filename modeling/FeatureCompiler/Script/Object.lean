import FeatureCompiler.Script.Token

/-!
The keys of an object literal. Values, arguments, bodies and computed keys are skipped by counting
brackets; only the objects that hold hooks are looked into, one level deep.
-/

namespace FeatureCompiler.Script

/-- A key of an object literal. For a hook key, the keys of the object literal that is its value. -/
structure Property where
  key : String
  hooks? : Option (List String)
deriving Repr, DecidableEq

def isHookKey (key : String) : Bool :=
  key = "before" || key = "after"

/-- The lexemes after the bracket that closes the outermost open one. With nothing open yet, the
next bracket is taken as the outermost. -/
def skipGroup : List Char → List Lexeme → Except Fault (List Lexeme)
  | _, [] => .error .unexpectedEnd
  | closers, ⟨.mark c, _⟩ :: rest =>
      match closing? c with
      | some close => skipGroup (close :: closers) rest
      | none =>
          if isClosing c then
            match closers with
            | [] => .error (.unbalanced c)
            | close :: outer =>
                if c = close then
                  if outer.isEmpty then .ok rest else skipGroup outer rest
                else .error (.unbalanced c)
          else skipGroup closers rest
  | closers, _ :: rest => skipGroup closers rest

/-- The lexemes from the comma or brace on that ends a value. -/
def skipValue : List Char → List Lexeme → Except Fault (List Lexeme)
  | _, [] => .error .unexpectedEnd
  | closers, ⟨.mark c, source⟩ :: rest =>
      match closing? c with
      | some close => skipValue (close :: closers) rest
      | none =>
          match closers with
          | [] =>
              if c = ',' ∨ c = '}' then .ok (⟨.mark c, source⟩ :: rest)
              else if isClosing c then .error (.unbalanced c)
              else skipValue [] rest
          | close :: outer =>
              if isClosing c then
                if c = close then skipValue outer rest else .error (.unbalanced c)
              else skipValue (close :: outer) rest
  | closers, _ :: rest => skipValue closers rest

def isModifier (name : String) : Bool :=
  name = "async" || name = "get" || name = "set"

/-- Whether a word before these lexemes is a key and not a modifier of the key that follows. -/
def endsKey : List Lexeme → Bool
  | ⟨.mark c, _⟩ :: _ => c = ':' || c = '(' || c = ',' || c = '}'
  | _ => false

/-- The text that the literal of a lexeme spells. -/
def Lexeme.spelled (lexeme : Lexeme) : Except Fault String :=
  match lexeme.source with
  | [] => .error .unterminatedString
  | quote :: rest => do
      let (value, _) ← readLiteral quote rest
      return String.ofList value

/-- A property key, if it is a plain one, and the lexemes after it. Computed keys and spreads are
skipped; a spread takes its value with it. -/
def readKey : List Lexeme → Except Fault (Option String × List Lexeme)
  | [] => .error .unexpectedEnd
  | ⟨.literal, source⟩ :: rest => do
      let key ← Lexeme.spelled ⟨.literal, source⟩
      return (some key, rest)
  | ⟨.word name, _⟩ :: rest =>
      if isModifier name && !endsKey rest then readKey rest else .ok (some name, rest)
  | ⟨.mark '[', source⟩ :: rest => do
      let after ← skipGroup [] (⟨.mark '[', source⟩ :: rest)
      return (none, after)
  | ⟨.mark c, source⟩ :: rest =>
      match source with
      | '.' :: '.' :: '.' :: _ => do
          let after ← skipValue [] (rest.drop 2)
          return (none, after)
      | _ => .error (.notAKey c)

/-- A way to read what stands after the colon of a property. It returns the keys of hooks, if it
looks for any, and never puts lexemes back. -/
structure ValueReader where
  read : Option String → List Lexeme → Except Fault (Option (List String) × List Lexeme)
  length_le : ∀ {key lexemes hooks rest},
    read key lexemes = .ok (hooks, rest) → rest.length ≤ lexemes.length

/-- What follows the key of a property: a colon and a value, the parameters and body of a method,
or nothing. -/
def readRest (value : ValueReader) (key : Option String) :
    List Lexeme → Except Fault (Option (List String) × List Lexeme)
  | ⟨.mark ':', _⟩ :: rest => value.read key rest
  | ⟨.mark '(', source⟩ :: rest => do
      let body ← skipGroup [] (⟨.mark '(', source⟩ :: rest)
      let after ← skipGroup [] body
      return (none, after)
  | rest => .ok (none, rest)

/-- The first character of a lexeme, as it is shown in a fault. -/
def Lexeme.firstChar (lexeme : Lexeme) : Char :=
  match lexeme.token with
  | .mark c => c
  | _ => lexeme.source.headD ' '

theorem skipGroup_length_lt {closers : List Char} {lexemes rest : List Lexeme}
    (h : skipGroup closers lexemes = .ok rest) : rest.length < lexemes.length := by
  fun_induction skipGroup closers lexemes with
  | case1 | case3 | case6 => cases h
  | case4 => cases h; simp
  | case2 _ _ _ _ _ _ ih => have := ih h; simp only [List.length_cons]; omega
  | case5 _ _ _ _ _ _ _ ih => have := ih h; simp only [List.length_cons]; omega
  | case7 _ _ _ _ _ _ ih => have := ih h; simp only [List.length_cons]; omega
  | case8 _ _ _ _ ih => have := ih h; simp only [List.length_cons]; omega

theorem skipValue_length_le {closers : List Char} {lexemes rest : List Lexeme}
    (h : skipValue closers lexemes = .ok rest) : rest.length ≤ lexemes.length := by
  fun_induction skipValue closers lexemes with
  | case1 | case4 | case7 => cases h
  | case3 => cases h; exact Nat.le_refl _
  | case2 _ _ _ _ _ _ ih => have := ih h; simp only [List.length_cons]; omega
  | case5 _ _ _ _ _ _ ih => have := ih h; simp only [List.length_cons]; omega
  | case6 _ _ _ _ _ _ ih => have := ih h; simp only [List.length_cons]; omega
  | case8 _ _ _ _ _ _ _ ih => have := ih h; simp only [List.length_cons]; omega
  | case9 _ _ _ _ ih => have := ih h; simp only [List.length_cons]; omega

theorem readKey_length_lt {lexemes rest : List Lexeme} {key : Option String}
    (h : readKey lexemes = .ok (key, rest)) : rest.length < lexemes.length := by
  fun_induction readKey lexemes with
  | case1 | case7 => cases h
  | case2 =>
      obtain ⟨_, -, h⟩ := bind_eq_ok h
      cases h
      simp
  | case3 _ _ _ _ ih => have := ih h; simp only [List.length_cons]; omega
  | case4 => cases h; simp
  | case5 =>
      obtain ⟨_, hgroup, h⟩ := bind_eq_ok h
      cases h
      exact skipGroup_length_lt hgroup
  | case6 =>
      obtain ⟨_, hvalue, h⟩ := bind_eq_ok h
      cases h
      have := skipValue_length_le hvalue
      simp only [List.length_drop, List.length_cons] at *
      omega

theorem readRest_length_le {value : ValueReader} {key : Option String}
    {lexemes rest : List Lexeme} {hooks : Option (List String)}
    (h : readRest value key lexemes = .ok (hooks, rest)) : rest.length ≤ lexemes.length := by
  unfold readRest at h
  split at h
  · have := value.length_le h
    simp only [List.length_cons]
    omega
  · obtain ⟨body, hparameters, h⟩ := bind_eq_ok h
    obtain ⟨after, hbody, h⟩ := bind_eq_ok h
    cases h
    have := skipGroup_length_lt hparameters
    have := skipGroup_length_lt hbody
    omega
  · cases h
    exact Nat.le_refl _

/-- One property, and the lexemes from its separator on. Nothing is found in a computed property
or a spread. -/
def readProperty (value : ValueReader) (lexemes : List Lexeme) :
    Except Fault (List Property × List Lexeme) := do
  let (key, afterKey) ← readKey lexemes
  let (hooks, after) ← readRest value key afterKey
  return (key.toList.map fun key => ⟨key, hooks⟩, after)

theorem readProperty_length_lt {value : ValueReader} {lexemes rest : List Lexeme}
    {found : List Property} (h : readProperty value lexemes = .ok (found, rest)) :
    rest.length < lexemes.length := by
  obtain ⟨⟨key, afterKey⟩, hkey, h⟩ := bind_eq_ok h
  obtain ⟨⟨hooks, after⟩, hrest, h⟩ := bind_eq_ok h
  cases h
  exact Nat.lt_of_le_of_lt (readRest_length_le hrest) (readKey_length_lt hkey)

/-- The lexemes after a mark, if they start with it. -/
def afterMark? (c : Char) : List Lexeme → Option (List Lexeme)
  | ⟨.mark d, _⟩ :: rest => if d = c then some rest else none
  | _ => none

theorem afterMark?_length_lt {c : Char} {lexemes rest : List Lexeme}
    (h : afterMark? c lexemes = some rest) : rest.length < lexemes.length := by
  unfold afterMark? at h
  split at h
  · split at h
    · cases h
      simp
    · cases h
  · cases h

/-- Why a property cannot be followed by these lexemes. -/
def separatorFault : List Lexeme → Fault
  | [] => .unexpectedEnd
  | lexeme :: _ => .noSeparator lexeme.firstChar

/-- The properties of an object literal after its opening brace, and the lexemes after its closing
one. A comma may follow the last property. -/
def readProperties (value : ValueReader) (lexemes : List Lexeme) :
    Except Fault (List Property × List Lexeme) :=
  match afterMark? '}' lexemes with
  | some rest => .ok ([], rest)
  | none =>
      match _hproperty : readProperty value lexemes with
      | .error fault => .error fault
      | .ok (found, after) =>
          match _hcomma : afterMark? ',' after, afterMark? '}' after with
          | some rest, _ => do
              let (more, final) ← readProperties value rest
              return (found ++ more, final)
          | none, some rest => .ok (found, rest)
          | none, none => .error (separatorFault after)
termination_by lexemes.length
decreasing_by
  have := readProperty_length_lt _hproperty
  have := afterMark?_length_lt _hcomma
  omega

theorem readProperties_length_lt {value : ValueReader} {lexemes rest : List Lexeme}
    {properties : List Property} (h : readProperties value lexemes = .ok (properties, rest)) :
    rest.length < lexemes.length := by
  fun_induction readProperties value lexemes generalizing properties rest with
  | case1 _ _ hclose => cases h; exact afterMark?_length_lt hclose
  | case2 | case5 => cases h
  | case3 _ _ _ _ hproperty _ hcomma ih =>
      obtain ⟨_, hmore, h⟩ := bind_eq_ok h
      cases h
      have := readProperty_length_lt hproperty
      have := afterMark?_length_lt hcomma
      have := ih hmore
      omega
  | case4 _ _ _ _ hproperty _ _ hclose =>
      cases h
      have := readProperty_length_lt hproperty
      have := afterMark?_length_lt hclose
      omega

/-- Values are passed over. -/
def skippedValue : ValueReader where
  read _ lexemes := do
    let rest ← skipValue [] lexemes
    return (none, rest)
  length_le h := by
    obtain ⟨_, hskip, h⟩ := bind_eq_ok h
    cases h
    exact skipValue_length_le hskip

/-- Object literals under a hook key are read for their keys, all other values passed over. -/
def hookValue : ValueReader where
  read key lexemes :=
    match key.any isHookKey, lexemes with
    | true, ⟨.mark '{', _⟩ :: rest => do
        let (properties, after) ← readProperties skippedValue rest
        return (some (properties.map Property.key), after)
    | _, _ => skippedValue.read key lexemes
  length_le h := by
    split at h
    · obtain ⟨_, hproperties, h⟩ := bind_eq_ok h
      cases h
      have := readProperties_length_lt hproperties
      simp only [List.length_cons]
      omega
    · exact skippedValue.length_le h

/-- The properties of the object literal whose opening brace is the first lexeme. -/
def readObject (lexemes : List Lexeme) : Except Fault (List Property × List Lexeme) :=
  readProperties hookValue (lexemes.drop 1)

end FeatureCompiler.Script
