import FeatureCompiler.Proofs.Script.Locality
import FeatureCompiler.Proofs.Script.Properties

/-!
The brackets among the lexemes that are read for an object literal. Each of the readers stops where
all brackets that it has passed are closed again, and between its start and its end nothing is
closed that was open before. The keys that it returns are all written there.
-/

namespace FeatureCompiler.Script

/-- What is open after a token, innermost first, by the brackets that close it. A closing bracket
has to match. -/
def bracketStep (stack : List Char) : Token → Option (List Char)
  | .mark c =>
      match closing? c with
      | some close => some (close :: stack)
      | none =>
          if isClosing c then
            match stack with
            | [] => none
            | close :: outer => if c = close then some outer else none
          else some stack
  | _ => some stack

/-- What is open after these lexemes, if their brackets match. -/
def openAfter (stack : List Char) (lexs : List Lexeme) : Option (List Char) :=
  lexs.foldlM (fun stack lexeme => bracketStep stack lexeme.token) stack

/-- The lexemes close these brackets, and nothing behind them, however much is open there. -/
structure ClosesBrackets (closers : List Char) (lexs : List Lexeme) : Prop where
  openAfter_eq : ∀ outer, openAfter (closers ++ outer) lexs = some outer
  above : ∀ outer front, front <+: lexs →
    ∃ more, openAfter (closers ++ outer) front = some (more ++ outer)

/-- Brackets match, and none is closed that was not opened here. -/
def Balanced (lexs : List Lexeme) : Prop :=
  ClosesBrackets [] lexs

/-- Brackets match, and the first time that all of them are closed is at the last lexeme. -/
structure IsGroup (lexs : List Lexeme) : Prop where
  closed : openAfter [] lexs = some []
  open_before : ∀ front, front <+: lexs → front ≠ [] → front ≠ lexs →
    ∃ close outer, openAfter [] front = some (close :: outer)

theorem openAfter_append (stack : List Char) (first second : List Lexeme) :
    openAfter stack (first ++ second) =
      (openAfter stack first).bind fun middle => openAfter middle second :=
  List.foldlM_append

theorem bracketStep_skip {token : Token} (h : ∀ c, token ≠ .mark c) (stack : List Char) :
    bracketStep stack token = some stack := by
  cases token with
  | mark c => exact absurd rfl (h c)
  | word name => rfl
  | literal => rfl

theorem bracketStep_plain {c : Char} (hopening : closing? c = none) (hclosing : isClosing c = false)
    (stack : List Char) : bracketStep stack (.mark c) = some stack := by
  simp [bracketStep, hopening, hclosing]

theorem bracketStep_open {c close : Char} (h : closing? c = some close) (stack : List Char) :
    bracketStep stack (.mark c) = some (close :: stack) := by
  simp [bracketStep, h]

theorem bracketStep_close {c : Char} (hopening : closing? c = none) (hclosing : isClosing c = true)
    (stack : List Char) : bracketStep (c :: stack) (.mark c) = some stack := by
  simp [bracketStep, hopening, hclosing]

namespace ClosesBrackets

variable {closers others : List Char} {lexeme : Lexeme} {lexs first second : List Lexeme}

theorem nil : ClosesBrackets [] [] where
  openAfter_eq _ := rfl
  above outer front hfront := by
    rw [List.prefix_nil.mp hfront]
    exact ⟨[], rfl⟩

/-- One lexeme, by what it does to the brackets that are open. -/
theorem cons (hstep : ∀ outer, bracketStep (closers ++ outer) lexeme.token = some (others ++ outer))
    (h : ClosesBrackets others lexs) : ClosesBrackets closers (lexeme :: lexs) where
  openAfter_eq outer := by
    rw [openAfter, List.foldlM_cons, hstep]
    exact h.openAfter_eq outer
  above outer front hfront := by
    rcases List.prefix_cons_iff.mp hfront with rfl | ⟨rest, rfl, hrest⟩
    · exact ⟨closers, rfl⟩
    · rw [openAfter, List.foldlM_cons, hstep]
      exact h.above outer rest hrest

theorem append (hfirst : ClosesBrackets closers first) (hsecond : ClosesBrackets others second) :
    ClosesBrackets (closers ++ others) (first ++ second) where
  openAfter_eq outer := by
    rw [openAfter_append, List.append_assoc, hfirst.openAfter_eq]
    exact hsecond.openAfter_eq outer
  above outer front hfront := by
    rw [List.append_assoc]
    rcases List.prefix_or_prefix_of_prefix hfront (List.prefix_append first second) with h | h
    · obtain ⟨more, hmore⟩ := hfirst.above (others ++ outer) front h
      exact ⟨more ++ others, by rw [hmore, List.append_assoc]⟩
    · obtain ⟨rest, rfl⟩ := h
      rw [openAfter_append, hfirst.openAfter_eq]
      exact hsecond.above outer rest ((List.prefix_append_right_inj first).mp hfront)

theorem skip (hlexeme : ∀ c, lexeme.token ≠ .mark c) (h : ClosesBrackets closers lexs) :
    ClosesBrackets closers (lexeme :: lexs) :=
  h.cons fun _ => bracketStep_skip hlexeme _

theorem plain {c : Char} {source : List Char} (hopening : closing? c = none)
    (hclosing : isClosing c = false) (h : ClosesBrackets closers lexs) :
    ClosesBrackets closers (⟨.mark c, source⟩ :: lexs) :=
  h.cons fun _ => bracketStep_plain hopening hclosing _

theorem opening {c close : Char} {source : List Char} (hc : closing? c = some close)
    (h : ClosesBrackets (close :: closers) lexs) :
    ClosesBrackets closers (⟨.mark c, source⟩ :: lexs) :=
  h.cons fun _ => bracketStep_open hc _

theorem closing {c : Char} {source : List Char} (hopening : closing? c = none)
    (hclosing : isClosing c = true) (h : ClosesBrackets closers lexs) :
    ClosesBrackets (c :: closers) (⟨.mark c, source⟩ :: lexs) :=
  h.cons fun _ => bracketStep_close hopening hclosing _

end ClosesBrackets

section Braces

variable {inside : List Lexeme} {first last : List Char}

theorem Balanced.braces (h : Balanced inside) :
    Balanced (⟨.mark '{', first⟩ :: (inside ++ [⟨.mark '}', last⟩])) := by
  have hclose : ClosesBrackets ['}'] [⟨.mark '}', last⟩] := ClosesBrackets.nil.closing rfl rfl
  have hinside : ClosesBrackets ['}'] (inside ++ [⟨.mark '}', last⟩]) := h.append hclose
  exact hinside.opening rfl

theorem Balanced.isGroup (h : Balanced inside) :
    IsGroup (⟨.mark '{', first⟩ :: (inside ++ [⟨.mark '}', last⟩])) where
  closed := h.braces.openAfter_eq []
  open_before front hfront hne hnot := by
    rcases List.prefix_cons_iff.mp hfront with rfl | ⟨front, rfl, hinside⟩
    · exact absurd rfl hne
    · rcases List.prefix_concat_iff.mp hinside with rfl | hinside
      · exact absurd rfl hnot
      · obtain ⟨more, hmore⟩ := h.above ['}'] front hinside
        have hopen : openAfter [] (⟨.mark '{', first⟩ :: front) = some (more ++ ['}']) := hmore
        rw [hopen]
        cases more with
        | nil => exact ⟨'}', [], rfl⟩
        | cons close more => exact ⟨close, more ++ ['}'], rfl⟩

end Braces

section Skipping

variable {closers : List Char} {lexs rest : List Lexeme}

theorem token_ne_mark {lexeme : Lexeme} (h : ∀ c source, lexeme = ⟨.mark c, source⟩ → False)
    (c : Char) : lexeme.token ≠ .mark c := by
  intro htoken
  exact h c lexeme.source (by rw [← htoken])

theorem skipGroup_closes (h : skipGroup closers lexs = .ok rest) :
    ∃ taken, lexs = taken ++ rest ∧ ClosesBrackets closers taken := by
  fun_induction skipGroup closers lexs with
  | case1 | case3 | case6 => cases h
  | case2 closers c source more close hc ih =>
      obtain ⟨taken, rfl, htaken⟩ := ih h
      exact ⟨_, rfl, htaken.opening hc⟩
  | case4 source more close outer houter hopening hclosing =>
      cases h
      rw [List.isEmpty_iff] at houter
      subst houter
      exact ⟨[_], rfl, ClosesBrackets.nil.closing hopening hclosing⟩
  | case5 source more close outer _ hopening hclosing ih =>
      obtain ⟨taken, rfl, htaken⟩ := ih h
      exact ⟨_, rfl, htaken.closing hopening hclosing⟩
  | case7 closers c source more hopening hclosing ih =>
      obtain ⟨taken, rfl, htaken⟩ := ih h
      exact ⟨_, rfl, htaken.plain hopening (by simpa using hclosing)⟩
  | case8 closers lexeme more hlexeme ih =>
      obtain ⟨taken, rfl, htaken⟩ := ih h
      exact ⟨_, rfl, htaken.skip (token_ne_mark hlexeme)⟩

theorem skipValue_closes (h : skipValue closers lexs = .ok rest) :
    ∃ taken, lexs = taken ++ rest ∧ ClosesBrackets closers taken := by
  fun_induction skipValue closers lexs with
  | case1 | case4 | case7 => cases h
  | case2 closers c source more close hc ih =>
      obtain ⟨taken, rfl, htaken⟩ := ih h
      exact ⟨_, rfl, htaken.opening hc⟩
  | case3 =>
      cases h
      exact ⟨[], rfl, .nil⟩
  | case5 c source more hopening _ hclosing ih =>
      obtain ⟨taken, rfl, htaken⟩ := ih h
      exact ⟨_, rfl, htaken.plain hopening (by simpa using hclosing)⟩
  | case6 source more close outer hopening hclosing ih =>
      obtain ⟨taken, rfl, htaken⟩ := ih h
      exact ⟨_, rfl, htaken.closing hopening hclosing⟩
  | case8 c source more hopening close outer hclosing ih =>
      obtain ⟨taken, rfl, htaken⟩ := ih h
      exact ⟨_, rfl, htaken.plain hopening (by simpa using hclosing)⟩
  | case9 closers lexeme more hlexeme ih =>
      obtain ⟨taken, rfl, htaken⟩ := ih h
      exact ⟨_, rfl, htaken.skip (token_ne_mark hlexeme)⟩

end Skipping

/-- The keys that were found for a property. -/
def Property.keys (property : Property) : List String :=
  property.key :: property.hooks?.getD []

/-- The lexemes `rest` come after some in which brackets are balanced and all these keys are
written. -/
def Covers (keys : List String) (lexs rest : List Lexeme) : Prop :=
  ∃ taken, lexs = taken ++ rest ∧ Balanced taken ∧
    ∀ key ∈ keys, ∃ lexeme ∈ taken, lexeme.IsKey key

namespace Covers

variable {keys more : List String} {lexs middle rest : List Lexeme}

theorem of_balanced {taken : List Lexeme} (h : Balanced taken) : Covers [] (taken ++ rest) rest :=
  ⟨taken, rfl, h, List.forall_mem_nil _⟩

theorem refl : Covers [] lexs lexs :=
  of_balanced .nil

theorem suffix (h : Covers keys lexs rest) : rest <:+ lexs := by
  obtain ⟨taken, rfl, -, -⟩ := h
  exact ⟨taken, rfl⟩

theorem trans (hfirst : Covers keys lexs middle) (hsecond : Covers more middle rest) :
    Covers (keys ++ more) lexs rest := by
  obtain ⟨taken, rfl, htaken, hkeys⟩ := hfirst
  obtain ⟨others, rfl, hothers, hmore⟩ := hsecond
  refine ⟨taken ++ others, (List.append_assoc ..).symm, htaken.append hothers, ?_⟩
  rw [List.forall_mem_append]
  constructor
  · intro key hkey
    obtain ⟨lexeme, hlexeme, hname⟩ := hkeys key hkey
    exact ⟨lexeme, List.mem_append_left _ hlexeme, hname⟩
  · intro key hkey
    obtain ⟨lexeme, hlexeme, hname⟩ := hmore key hkey
    exact ⟨lexeme, List.mem_append_right _ hlexeme, hname⟩

theorem mono (h : Covers keys lexs rest) (hkeys : more ⊆ keys) : Covers more lexs rest := by
  obtain ⟨taken, hlexs, htaken, hnames⟩ := h
  exact ⟨taken, hlexs, htaken, fun key hkey => hnames key (hkeys hkey)⟩

theorem group (h : skipGroup [] lexs = .ok rest) : Covers [] lexs rest := by
  obtain ⟨taken, rfl, htaken⟩ := skipGroup_closes h
  exact of_balanced htaken

theorem value (h : skipValue [] lexs = .ok rest) : Covers [] lexs rest := by
  obtain ⟨taken, rfl, htaken⟩ := skipValue_closes h
  exact of_balanced htaken

theorem mark {c : Char} {source : List Char} (hopening : closing? c = none)
    (hclosing : isClosing c = false) : Covers [] (⟨.mark c, source⟩ :: rest) rest :=
  of_balanced (ClosesBrackets.nil.plain hopening hclosing)

theorem named {lexeme : Lexeme} {key : String} (hkey : lexeme.IsKey key) :
    Covers [key] (lexeme :: rest) rest := by
  have hlexeme (c : Char) : lexeme.token ≠ .mark c := by
    rcases hkey with h | ⟨h, -⟩ <;> rw [h] <;> exact Token.noConfusion
  refine ⟨[lexeme], rfl, ClosesBrackets.nil.skip hlexeme, ?_⟩
  rw [List.forall_mem_singleton]
  exact ⟨lexeme, List.mem_singleton_self _, hkey⟩

/-- Braces around what was passed. -/
theorem braces {first last : List Char} (h : Covers keys lexs (⟨.mark '}', last⟩ :: rest)) :
    Covers keys (⟨.mark '{', first⟩ :: lexs) rest := by
  obtain ⟨taken, rfl, htaken, hkeys⟩ := h
  refine ⟨⟨.mark '{', first⟩ :: (taken ++ [⟨.mark '}', last⟩]), by simp, htaken.braces, ?_⟩
  intro key hkey
  obtain ⟨lexeme, hlexeme, hname⟩ := hkeys key hkey
  exact ⟨lexeme, List.mem_cons_of_mem _ (List.mem_append_left _ hlexeme), hname⟩

end Covers

/-- The lexemes of some text. -/
def AreLexemes (lexs : List Lexeme) : Prop :=
  ∃ text, lexemes text = .ok lexs

theorem AreLexemes.suffix {lexs rest : List Lexeme} (h : AreLexemes lexs) (hrest : rest <:+ lexs) :
    AreLexemes rest := by
  induction lexs with
  | nil => rwa [List.suffix_nil.mp hrest]
  | cons lexeme lexs ih =>
      rcases List.suffix_cons_iff.mp hrest with rfl | hmore
      · exact h
      · obtain ⟨text, htext⟩ := h
        rcases lexemes_cases htext with ⟨hnil, -⟩ | ⟨_, _, _, after, _, _, _, hafter, hlexs⟩
        · cases hnil
        · cases hlexs
          exact ih ⟨after, hafter⟩ hmore

/-- Each of two dots is a lexeme. -/
theorem lexemes_dots {tail : List Char} {lexs : List Lexeme}
    (h : lexemes ('.' :: '.' :: tail) = .ok lexs) : ∃ more, lexemes tail = .ok more ∧
      lexs = ⟨.mark '.', '.' :: '.' :: tail⟩ :: ⟨.mark '.', '.' :: tail⟩ :: more := by
  have hdot : isMark '.' = true := isMark_of_mem (by decide)
  rw [lexemes_mark hdot, lexemes_mark hdot] at h
  cases hmore : lexemes tail with
  | error fault =>
      rw [hmore] at h
      cases h
  | ok more =>
      rw [hmore] at h
      cases h
      exact ⟨more, rfl, rfl⟩

/-- Where three dots stand, the first lexeme is one of them, and the next two are the others. -/
theorem AreLexemes.dots {c : Char} {tail : List Char} {rest : List Lexeme}
    (h : AreLexemes (⟨.mark c, '.' :: '.' :: '.' :: tail⟩ :: rest)) :
    c = '.' ∧ ∃ second third more, rest = ⟨.mark '.', second⟩ :: ⟨.mark '.', third⟩ :: more := by
  obtain ⟨text, htext⟩ := h
  rcases lexemes_cases htext with ⟨hnil, -⟩ | ⟨_, _, _, _, _, _, hfirst, hmore, hlexs⟩
  · cases hnil
  · obtain ⟨hlexeme, rfl⟩ := List.cons.inj hlexs
    obtain ⟨rfl, hsource⟩ := Lexeme.mk.inj hlexeme
    obtain ⟨rfl, hrest⟩ := List.cons.inj hsource
    have hread := hfirst.readToken_eq
    rw [← hrest, readToken_mark (isMark_of_mem (by decide))] at hread
    cases hread
    obtain ⟨last, -, rfl⟩ := lexemes_dots hmore
    exact ⟨rfl, _, _, last, rfl⟩

section Reading

variable {lexs rest : List Lexeme}

theorem Covers.key {key : Option String} (hlexs : AreLexemes lexs)
    (h : readKey lexs = .ok (key, rest)) : Covers key.toList lexs rest := by
  fun_induction readKey lexs with
  | case1 | case7 => cases h
  | case2 source more =>
      obtain ⟨name, hname, h⟩ := bind_eq_ok h
      cases h
      exact .named (.inr ⟨rfl, hname⟩)
  | case3 name source more _ ih =>
      have hword : Covers [name] (⟨.word name, source⟩ :: more) more := .named (.inl rfl)
      have hkey := ih (hlexs.suffix (List.suffix_cons ..)) h
      exact (hword.trans hkey).mono (List.subset_cons_self ..)
  | case4 name source more _ =>
      cases h
      exact .named (.inl rfl)
  | case5 source more =>
      obtain ⟨after, hgroup, h⟩ := bind_eq_ok h
      cases h
      exact .group hgroup
  | case6 c more _ tail =>
      obtain ⟨after, hvalue, h⟩ := bind_eq_ok h
      cases h
      obtain ⟨rfl, second, third, last, rfl⟩ := hlexs.dots
      have hdot {source : List Char} {rest : List Lexeme} :
          Covers [] (⟨.mark '.', source⟩ :: rest) rest := .mark rfl rfl
      exact ((hdot.trans hdot).trans hdot).trans (.value hvalue)

/-- What a reader of values passes, and the keys of hooks that it finds there. -/
def ValueReader.IsPassing (value : ValueReader) : Prop :=
  ∀ {key lexs hooks rest}, AreLexemes lexs → value.read key lexs = .ok (hooks, rest) →
    Covers (hooks.getD []) lexs rest

variable {value : ValueReader}

theorem Covers.afterKey {key : Option String} {hooks : Option (List String)}
    (hvalue : value.IsPassing) (hlexs : AreLexemes lexs)
    (h : readRest value key lexs = .ok (hooks, rest)) : Covers (hooks.getD []) lexs rest := by
  unfold readRest at h
  split at h
  · next source more =>
      have hcolon : Covers [] (⟨.mark ':', source⟩ :: more) more := .mark rfl rfl
      exact hcolon.trans (hvalue (hlexs.suffix (List.suffix_cons ..)) h)
  · obtain ⟨body, hparameters, h⟩ := bind_eq_ok h
    obtain ⟨after, hbody, h⟩ := bind_eq_ok h
    cases h
    exact (Covers.group hparameters).trans (.group hbody)
  · cases h
    exact .refl

theorem Covers.property {found : List Property} (hvalue : value.IsPassing)
    (hlexs : AreLexemes lexs) (h : readProperty value lexs = .ok (found, rest)) :
    Covers (found.flatMap Property.keys) lexs rest := by
  obtain ⟨⟨key, afterKey⟩, hkey, h⟩ := bind_eq_ok h
  obtain ⟨⟨hooks, after⟩, hrest, h⟩ := bind_eq_ok h
  cases h
  have hfirst := Covers.key hlexs hkey
  have hsecond := Covers.afterKey hvalue (hlexs.suffix hfirst.suffix) hrest
  apply (hfirst.trans hsecond).mono
  cases key with
  | none => exact List.nil_subset _
  | some key => simp [Property.keys]

theorem eq_cons_of_afterMark? {c : Char} (h : afterMark? c lexs = some rest) :
    ∃ source, lexs = ⟨.mark c, source⟩ :: rest := by
  unfold afterMark? at h
  split at h
  · next d source more =>
      split at h
      · next hc =>
          cases h
          exact ⟨source, by rw [hc]⟩
      · cases h
  · cases h

theorem Covers.properties {properties : List Property} (hvalue : value.IsPassing)
    (hlexs : AreLexemes lexs) (h : readProperties value lexs = .ok (properties, rest)) :
    ∃ last, Covers (properties.flatMap Property.keys) lexs (⟨.mark '}', last⟩ :: rest) := by
  fun_induction readProperties value lexs generalizing properties rest with
  | case1 lexs after hclose =>
      cases h
      obtain ⟨last, rfl⟩ := eq_cons_of_afterMark? hclose
      exact ⟨last, .refl⟩
  | case2 | case5 => cases h
  | case3 lexs _ found after hproperty more hcomma ih =>
      obtain ⟨⟨others, final⟩, hmore, h⟩ := bind_eq_ok h
      cases h
      obtain ⟨source, rfl⟩ := eq_cons_of_afterMark? hcomma
      have hfirst := Covers.property hvalue hlexs hproperty
      have hcomma : Covers [] (⟨.mark ',', source⟩ :: more) more := .mark rfl rfl
      have hbehind := hfirst.trans hcomma
      obtain ⟨last, hlast⟩ := ih (hlexs.suffix hbehind.suffix) hmore
      refine ⟨last, (hbehind.trans hlast).mono ?_⟩
      rw [List.append_nil, List.flatMap_append]
      exact List.Subset.refl _
  | case4 lexs _ found after hproperty more _ hclose =>
      cases h
      obtain ⟨last, rfl⟩ := eq_cons_of_afterMark? hclose
      exact ⟨last, Covers.property hvalue hlexs hproperty⟩

theorem skippedValue_isPassing : skippedValue.IsPassing := by
  intro key lexs hooks rest _ h
  obtain ⟨after, hvalue, h⟩ := bind_eq_ok h
  cases h
  exact .value hvalue

theorem hookValue_isPassing : hookValue.IsPassing := by
  intro key lexs hooks rest hlexs h
  simp only [hookValue] at h
  split at h
  · obtain ⟨⟨properties, after⟩, hproperties, h⟩ := bind_eq_ok h
    cases h
    obtain ⟨last, hlast⟩ :=
      Covers.properties skippedValue_isPassing (hlexs.suffix (List.suffix_cons ..)) hproperties
    apply hlast.braces.mono
    intro key hkey
    obtain ⟨property, hproperty, rfl⟩ := List.mem_map.mp hkey
    exact List.mem_flatMap.mpr ⟨property, hproperty, List.mem_cons_self ..⟩
  · exact skippedValue_isPassing hlexs h

end Reading

end FeatureCompiler.Script
