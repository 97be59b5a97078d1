import FeatureCompiler.Proofs.Script.Lockstep

/-!
How far a reader of a script gets. What a reader leaves is an end of the text that it was given, so
it stands at a later place of the same script and never past its end. Literals, templates, groups in
brackets, keys and objects take at least one character; blanks, comments and values may take none.
-/

namespace FeatureCompiler.Script

section Suffixes

variable {text rest : List Char}

theorem escape_suffix {c : Option Char} (h : escape text = .ok (c, rest)) : rest <:+ text := by
  obtain ⟨spelling, -, rfl⟩ := escape_sound h
  exact List.suffix_append spelling rest

theorem readLiteral_suffix {quote : Char} {value : List Char}
    (h : readLiteral quote text = .ok (value, rest)) : rest <:+ text := by
  fun_induction readLiteral quote text generalizing value rest with
  | case1 | case2 | case5 => cases h
  | case3 text c after hescape ih =>
      obtain ⟨_, hmore, h⟩ := bind_eq_ok h
      cases h
      exact ((ih hmore).trans (escape_suffix hescape)).trans (List.suffix_cons _ text)
  | case4 c text =>
      cases h
      exact List.suffix_cons _ _
  | case6 c text _ _ _ ih =>
      obtain ⟨_, hmore, h⟩ := bind_eq_ok h
      cases h
      exact (ih hmore).trans (List.suffix_cons c text)

theorem skipFrames_suffix {frames : List Frame} (h : skipFrames frames text = .ok rest) :
    rest <:+ text := by
  obtain ⟨taken, htaken⟩ := exists_closes h
  rw [htaken.text_eq]
  exact List.suffix_append taken rest

theorem readToken_suffix {c : Char} {token : Token} (h : readToken c text = .ok (token, rest)) :
    rest <:+ text := by
  obtain ⟨-, taken, rfl, -⟩ := readToken_local h
  exact List.suffix_append taken rest

theorem passOver_suffix {c : Char} (h : passOver c text = .ok rest) : rest <:+ text := by
  unfold passOver at h
  split at h
  · exact skipFrames_suffix h
  · split at h
    · cases h
    · split at h
      · obtain ⟨_, hliteral, h⟩ := bind_eq_ok h
        cases h
        exact readLiteral_suffix hliteral
      · split at h
        · exact skipFrames_suffix h
        · cases h
          exact List.suffix_refl _

/-- What is passed over behind blanks and comments. -/
theorem passOver_behind {c : Char} {tail after : List Char}
    (htrivia : skipTrivia .blanks text = .ok (c :: tail)) (hpass : passOver c tail = .ok after) :
    after <:+ text :=
  (passOver_suffix hpass).trans ((List.suffix_cons c tail).trans (skipTrivia_suffix htrivia))

theorem walkGroup_suffix (h : walkGroup text = .ok rest) : rest <:+ text := by
  fun_induction walkGroup text with
  | case1 | case2 | case3 => cases h
  | case4 text c tail htrivia after hpass =>
      cases h
      exact passOver_behind htrivia hpass
  | case5 text c tail htrivia after hpass _ ih => exact (ih h).trans (passOver_behind htrivia hpass)

theorem walkValue_suffix (h : walkValue text = .ok rest) : rest <:+ text := by
  fun_induction walkValue text with
  | case1 | case2 | case4 => cases h
  | case3 text c tail htrivia =>
      cases h
      exact skipTrivia_suffix htrivia
  | case5 text c tail htrivia _ after hpass ih => exact (ih h).trans (passOver_behind htrivia hpass)

theorem walkKey_suffix {key : Option String} (h : walkKey text = .ok (key, rest)) :
    rest <:+ text := by
  fun_induction walkKey text with
  | case1 | case5 | case9 => cases h
  | case2 text =>
      obtain ⟨_, hvalue, h⟩ := bind_eq_ok h
      cases h
      exact (walkValue_suffix hvalue).trans (List.suffix_append ['.', '.', '.'] text)
  | case3 c text =>
      obtain ⟨_, hliteral, h⟩ := bind_eq_ok h
      cases h
      exact (readLiteral_suffix hliteral).trans (List.suffix_cons c text)
  | case4 =>
      obtain ⟨_, hgroup, h⟩ := bind_eq_ok h
      cases h
      exact walkGroup_suffix hgroup
  | case6 c text _ _ _ _ _ _ _ htrivia =>
      cases h
      exact (skipTrivia_suffix htrivia).trans
        ((List.dropWhile_suffix isWordChar).trans (List.suffix_cons c text))
  | case7 c text _ _ _ _ _ _ _ htrivia _ ih =>
      exact ((ih h).trans (skipTrivia_suffix htrivia)).trans
        ((List.dropWhile_suffix isWordChar).trans (List.suffix_cons c text))
  | case8 c text =>
      cases h
      exact (List.dropWhile_suffix isWordChar).trans (List.suffix_cons c text)

/-- A way to read values that leaves a part of the text that it was given. -/
def TextReader.LeavesSuffix (value : TextReader) : Prop :=
  ∀ {key text hooks rest}, value.read key text = .ok (hooks, rest) → rest <:+ text

variable {value : TextReader}

theorem walkRest_suffix (hvalue : value.LeavesSuffix) {key : Option String}
    {hooks : Option (List String)} (h : walkRest value key text = .ok (hooks, rest)) :
    rest <:+ text := by
  obtain ⟨next, htrivia, h⟩ := bind_eq_ok h
  have hnext := skipTrivia_suffix htrivia
  split at h
  · exact (hvalue h).trans ((List.suffix_cons _ _).trans hnext)
  · obtain ⟨body, hparameters, h⟩ := bind_eq_ok h
    obtain ⟨after, hbody, h⟩ := bind_eq_ok h
    cases h
    exact ((walkGroup_suffix hbody).trans (walkGroup_suffix hparameters)).trans hnext
  · cases h
    exact hnext

theorem walkProperty_suffix (hvalue : value.LeavesSuffix) {found : List Property}
    (h : walkProperty value text = .ok (found, rest)) : rest <:+ text := by
  obtain ⟨⟨key, afterKey⟩, hkey, h⟩ := bind_eq_ok h
  obtain ⟨⟨hooks, after⟩, hrest, h⟩ := bind_eq_ok h
  cases h
  exact (walkRest_suffix hvalue hrest).trans (walkKey_suffix hkey)

theorem walkProperties_suffix (hvalue : value.LeavesSuffix) {properties : List Property}
    (h : walkProperties value text = .ok (properties, rest)) : rest <:+ text := by
  fun_induction walkProperties value text generalizing properties rest with
  | case1 | case3 | case4 | case7 | case8 => cases h
  | case2 text rest htrivia =>
      cases h
      exact (List.suffix_cons _ _).trans (skipTrivia_suffix htrivia)
  | case5 text next _ htrivia found behind hproperty more hbehind ih =>
      obtain ⟨_, hmore, h⟩ := bind_eq_ok h
      cases h
      have hothers := (ih hmore).trans ((List.suffix_cons _ _).trans (skipTrivia_suffix hbehind))
      exact hothers.trans ((walkProperty_suffix hvalue hproperty).trans (skipTrivia_suffix htrivia))
  | case6 text next _ htrivia found behind hproperty more hbehind =>
      cases h
      have hlast := (List.suffix_cons _ _).trans (skipTrivia_suffix hbehind)
      exact hlast.trans ((walkProperty_suffix hvalue hproperty).trans (skipTrivia_suffix htrivia))

theorem skippedText_leavesSuffix : skippedText.LeavesSuffix := by
  intro key text hooks rest h
  obtain ⟨_, hskip, h⟩ := bind_eq_ok h
  cases h
  exact walkValue_suffix hskip

theorem hookText_leavesSuffix : hookText.LeavesSuffix := by
  intro key text hooks rest h
  simp only [hookText] at h
  split at h
  · next htrivia =>
      obtain ⟨_, hproperties, h⟩ := bind_eq_ok h
      cases h
      exact (walkProperties_suffix skippedText_leavesSuffix hproperties).trans
        ((List.suffix_cons _ _).trans (skipTrivia_suffix htrivia))
  · exact skippedText_leavesSuffix h

end Suffixes

/-- The rest of a source from this place on, or from a later one that is not past its end. -/
def Reaches (source : List Char) (place : Nat) (rest : List Char) : Prop :=
  ∃ stop, place ≤ stop ∧ stop ≤ source.length ∧ rest = source.drop stop

/-- What the readers of characters leave, if they start at this place of a source. Only blanks,
comments and values may have taken nothing. -/
structure Progresses (source : List Char) (start : Nat) : Prop where
  trivia {rest} : skipTrivia .blanks (source.drop start) = .ok rest → Reaches source start rest
  literal {quote text value rest} : source.drop start = quote :: text →
    readLiteral quote text = .ok (value, rest) → Reaches source (start + 1) rest
  escape {text c rest} : source.drop start = '\\' :: text →
    escape text = .ok (c, rest) → Reaches source (start + 1) rest
  template {text rest} : source.drop start = '`' :: text →
    skipFrames [.template] text = .ok rest → Reaches source (start + 1) rest
  brackets {opening close text rest} : closing? opening = some close →
    source.drop start = opening :: text → skipFrames [.bracket close] text = .ok rest →
      Reaches source (start + 1) rest
  token {c text token rest} : source.drop start = c :: text →
    readToken c text = .ok (token, rest) → Reaches source (start + 1) rest
  group {rest} : walkGroup (source.drop start) = .ok rest → Reaches source (start + 1) rest
  value {rest} : walkValue (source.drop start) = .ok rest → Reaches source start rest
  key {key rest} : walkKey (source.drop start) = .ok (key, rest) → Reaches source (start + 1) rest
  object {text properties rest} : source.drop start = '{' :: text →
    walkProperties hookText text = .ok (properties, rest) → Reaches source (start + 1) rest
  hooks {text properties rest} : source.drop start = '{' :: text →
    walkProperties skippedText text = .ok (properties, rest) → Reaches source (start + 1) rest

/-- What the readers of lexemes leave, if they are given those of a source from a place on. They
stand where the readers of characters do, and what they leave are the lexemes from there on. -/
structure LexemesProgress (source : List Char) (start : Nat) (lexs : List Lexeme) : Prop where
  places : ∀ lexeme ∈ lexs, Reaches source start lexeme.source
  group {rest} : skipGroup [] lexs = .ok rest → ∃ text,
    walkGroup (source.drop start) = .ok text ∧ Lexed text rest ∧ Reaches source (start + 1) text
  value {rest} : skipValue [] lexs = .ok rest → ∃ text,
    walkValue (source.drop start) = .ok text ∧ Lexed text rest ∧ Reaches source start text
  key {key rest} : readKey lexs = .ok (key, rest) → ∃ visible text,
    skipTrivia .blanks (source.drop start) = .ok visible ∧ walkKey visible = .ok (key, text) ∧
      Lexed text rest ∧ Reaches source (start + 1) text
  object {properties rest} : readProperties hookValue lexs = .ok (properties, rest) → ∃ text,
    walkProperties hookText (source.drop start) = .ok (properties, text) ∧
      Lexed text rest ∧ Reaches source (start + 1) text
  hooks {properties rest} : readProperties skippedValue lexs = .ok (properties, rest) → ∃ text,
    walkProperties skippedText (source.drop start) = .ok (properties, text) ∧
      Lexed text rest ∧ Reaches source (start + 1) text

section Places

variable {source text rest : List Char} {start : Nat}

theorem Reaches.of_suffix {place : Nat} (hsuffix : rest <:+ source)
    (hplace : place + rest.length ≤ source.length) : Reaches source place rest :=
  ⟨source.length - rest.length, by omega, Nat.sub_le _ _, List.suffix_iff_eq_drop.mp hsuffix⟩

theorem Reaches.of_drop (hstart : start ≤ source.length) (hrest : rest <:+ source.drop start) :
    Reaches source start rest := by
  refine .of_suffix (hrest.trans (List.drop_suffix start source)) ?_
  have := hrest.length_le
  rw [List.length_drop] at this
  omega

theorem Reaches.of_drop_lt (hrest : rest <:+ source.drop start)
    (hlength : rest.length < (source.drop start).length) : Reaches source (start + 1) rest := by
  refine .of_suffix (hrest.trans (List.drop_suffix start source)) ?_
  rw [List.length_drop] at hlength
  omega

/-- A reader that is given what stands behind a character. -/
theorem Reaches.behind {c : Char} (htext : source.drop start = c :: text) (hrest : rest <:+ text) :
    Reaches source (start + 1) rest := by
  refine .of_drop_lt ?_ ?_
  · rw [htext]
    exact hrest.trans (List.suffix_cons c text)
  · have := hrest.length_le
    rw [htext, List.length_cons]
    omega

theorem progresses (hstart : start ≤ source.length) : Progresses source start where
  trivia h := .of_drop hstart (skipTrivia_suffix h)
  literal htext h := .behind htext (readLiteral_suffix h)
  escape htext h := .behind htext (escape_suffix h)
  template htext h := .behind htext (skipFrames_suffix h)
  brackets _ htext h := .behind htext (skipFrames_suffix h)
  token htext h := .behind htext (readToken_suffix h)
  group h := .of_drop_lt (walkGroup_suffix h) (walkGroup_length_lt h)
  value h := .of_drop hstart (walkValue_suffix h)
  key h := .of_drop_lt (walkKey_suffix h) (walkKey_length_lt h)
  object htext h := .behind htext (walkProperties_suffix hookText_leavesSuffix h)
  hooks htext h := .behind htext (walkProperties_suffix skippedText_leavesSuffix h)

theorem Lexed.properties_reaches {lexs rest : List Lexeme} {walker : TextReader}
    {reader : ValueReader} {properties : List Property} (h : Lexed (source.drop start) lexs)
    (hfollows : walker.Follows reader) (hpassing : reader.IsPassing)
    (hleaves : walker.LeavesSuffix)
    (hread : readProperties reader lexs = .ok (properties, rest)) :
    ∃ text, walkProperties walker (source.drop start) = .ok (properties, text) ∧
      Lexed text rest ∧ Reaches source (start + 1) text := by
  obtain ⟨⟨_, text⟩, hwalk, ⟨rfl, htext⟩, -⟩ := (h.properties hfollows hpassing).exists_ok hread
  have hahead := Reaches.of_drop_lt (walkProperties_suffix hleaves hwalk)
    (walkProperties_length_lt hwalk)
  exact ⟨text, hwalk, htext, hahead⟩

theorem Lexed.progresses {lexs : List Lexeme} (hstart : start ≤ source.length)
    (h : Lexed (source.drop start) lexs) : LexemesProgress source start lexs where
  places lexeme hlexeme := .of_drop hstart (source_suffix h lexeme hlexeme)
  group hgroup := by
    obtain ⟨text, hwalk, htext⟩ := h.group.exists_ok hgroup
    exact ⟨text, hwalk, htext, (Script.progresses hstart).group hwalk⟩
  value hvalue := by
    obtain ⟨text, hwalk, htext⟩ := h.value.exists_ok hvalue
    exact ⟨text, hwalk, htext, (Script.progresses hstart).value hwalk⟩
  key hkey := by
    obtain ⟨visible, htrivia, hbegins⟩ := h.exists_begins
    obtain ⟨⟨_, text⟩, hwalk, rfl, htext⟩ := hbegins.key.exists_ok hkey
    have hlength :=
      Nat.lt_of_lt_of_le (walkKey_length_lt hwalk) (skipTrivia_length_le htrivia)
    exact ⟨visible, text, htrivia, hwalk, htext,
      .of_drop_lt ((walkKey_suffix hwalk).trans (skipTrivia_suffix htrivia)) hlength⟩
  object := h.properties_reaches hookText_follows hookValue_isPassing hookText_leavesSuffix
  hooks := h.properties_reaches skippedText_follows skippedValue_isPassing
    skippedText_leavesSuffix

end Places

end FeatureCompiler.Script
