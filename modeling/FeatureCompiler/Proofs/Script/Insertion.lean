import FeatureCompiler.Proofs.Script.CutEscapes
import Mathlib.Data.List.Forall2

/-!
Blanks and comments that are put between the tokens of a script. The tokens are those from before,
at other places. As far as anything is read off the text from a token on, the same is read, save for
escapes that the end of a template literal cuts off.
-/

namespace FeatureCompiler.Script

/-- A blank, or a comment with blanks around it. -/
inductive IsSpacing : List Char → Prop where
  | blank {c : Char} : Text.isBlank c = true → IsSpacing [c]
  | lineComment {comment : List Char} :
      '\n' ∉ comment → IsSpacing (' ' :: '/' :: '/' :: (comment ++ ['\n']))
  | blockComment {comment : List Char} :
      ¬ ['*', '/'] <:+: comment → IsSpacing (' ' :: '/' :: '*' :: (comment ++ ['*', '/', ' ']))

theorem IsSpacing.isTrivia {text : List Char} (h : IsSpacing text) : IsTrivia text := by
  have hspace : Text.isBlank ' ' = true := by decide
  cases h with
  | blank hblank => exact .blank hblank .nil
  | lineComment hcomment => exact .blank hspace (.lineComment hcomment .nil)
  | blockComment hcomment => exact .blank hspace (.blockComment hcomment (.blank hspace .nil))

theorem IsSpacing.exists_head {text : List Char} (h : IsSpacing text) :
    ∃ c rest, text = c :: rest ∧ Text.isBlank c = true := by
  cases h with
  | blank hblank => exact ⟨_, _, rfl, hblank⟩
  | lineComment | blockComment => exact ⟨' ', _, rfl, by decide⟩

section Boundaries

/-- This text stands behind the token. -/
def Lexeme.EndsAt (lexeme : Lexeme) (after : List Char) : Prop :=
  ∃ c rest, lexeme.source = c :: rest ∧ readToken c rest = .ok (lexeme.token, after)

/-- The text `after` starts where a token of the source starts or ends, or where the source does. -/
inductive IsBoundary (lexs : List Lexeme) (source after : List Char) : Prop where
  | start : after = source → IsBoundary lexs source after
  | finish : after = [] → IsBoundary lexs source after
  | tokenStart {lexeme : Lexeme} :
      lexeme ∈ lexs → lexeme.source = after → IsBoundary lexs source after
  | tokenEnd {lexeme : Lexeme} :
      lexeme ∈ lexs → lexeme.EndsAt after → IsBoundary lexs source after

/-- The text stands behind all tokens of the source. -/
def IsTail (lexs : List Lexeme) (source tail : List Char) : Prop :=
  match lexs.getLast? with
  | none => tail = source
  | some lexeme => lexeme.EndsAt tail

/-- The source ends in a line comment, which goes on with whatever is written behind it. -/
def EndsInComment (lexs : List Lexeme) (source : List Char) : Prop :=
  ∃ tail, IsTail lexs source tail ∧ IsOpenComment tail

theorem Lexeme.EndsAt.suffix {lexeme : Lexeme} {after : List Char} (h : lexeme.EndsAt after) :
    after <:+ lexeme.source := by
  obtain ⟨c, rest, hsource, hread⟩ := h
  obtain ⟨-, taken, rfl, -⟩ := readToken_local hread
  rw [hsource]
  exact ⟨c :: taken, rfl⟩

variable {text trivia taken rest after : List Char} {c : Char} {token : Token}
  {lexs more : List Lexeme}

theorem FirstToken.suffix (h : FirstToken text trivia c taken rest token) : rest <:+ text :=
  ⟨trivia ++ c :: taken, by rw [h.text_eq]; simp⟩

theorem FirstToken.length_lt (h : FirstToken text trivia c taken rest token) :
    rest.length < text.length := by
  rw [h.text_eq]
  simp only [List.length_append, List.length_cons]
  omega

theorem FirstToken.endsAt_iff (h : FirstToken text trivia c taken rest token) :
    Lexeme.EndsAt ⟨token, c :: (taken ++ rest)⟩ after ↔ after = rest := by
  constructor
  · rintro ⟨d, tail, hsource, hread⟩
    cases hsource
    cases h.readToken_eq.symm.trans hread
    rfl
  · rintro rfl
    exact ⟨c, taken ++ after, rfl, h.readToken_eq⟩

theorem source_suffix (h : lexemes text = .ok lexs) : ∀ lexeme ∈ lexs, lexeme.source <:+ text := by
  induction hlength : text.length using Nat.strongRecOn generalizing text lexs with
  | ind length ih =>
      subst hlength
      rcases lexemes_cases h with
        ⟨rfl, -⟩ | ⟨trivia, c, taken, rest, token, more, hfirst, hmore, rfl⟩
      · exact List.forall_mem_nil _
      · rw [List.forall_mem_cons]
        refine ⟨⟨trivia, hfirst.text_eq.symm⟩, ?_⟩
        intro lexeme hlexeme
        exact (ih _ hfirst.length_lt hmore rfl lexeme hlexeme).trans hfirst.suffix

/-- A boundary is at the start, before the first token, or a boundary of what follows it. -/
theorem IsBoundary.cases (hfirst : FirstToken text trivia c taken rest token)
    (hmore : lexemes rest = .ok more)
    (h : IsBoundary (⟨token, c :: (taken ++ rest)⟩ :: more) text after) :
    after = text ∨ after = c :: (taken ++ rest) ∨
      (after <:+ rest ∧ IsBoundary more rest after) := by
  cases h with
  | start hafter => exact .inl hafter
  | finish hafter =>
      subst hafter
      exact .inr (.inr ⟨List.nil_suffix, .finish rfl⟩)
  | tokenStart hmem hsource =>
      rcases List.mem_cons.mp hmem with rfl | hmem
      · exact .inr (.inl hsource.symm)
      · refine .inr (.inr ⟨?_, .tokenStart hmem hsource⟩)
        rw [← hsource]
        exact source_suffix hmore _ hmem
  | tokenEnd hmem hends =>
      rcases List.mem_cons.mp hmem with rfl | hmem
      · have hafter := hfirst.endsAt_iff.mp hends
        subst hafter
        exact .inr (.inr ⟨List.suffix_refl _, .start rfl⟩)
      · exact .inr (.inr ⟨hends.suffix.trans (source_suffix hmore _ hmem), .tokenEnd hmem hends⟩)

theorem EndsInComment.cons (hfirst : FirstToken text trivia c taken rest token)
    (h : EndsInComment more rest) :
    EndsInComment (⟨token, c :: (taken ++ rest)⟩ :: more) text := by
  obtain ⟨tail, htail, hopen⟩ := h
  refine ⟨tail, ?_, hopen⟩
  cases more with
  | nil => exact hfirst.endsAt_iff.mpr htail
  | cons lexeme more =>
      rw [IsTail, List.getLast?_cons_cons]
      exact htail

end Boundaries

section Tokens

/-- Two lexemes that are read alike. Of the text from a lexeme on, the readers see its first
character, whether it starts with three dots, and what a literal spells. -/
structure Alike (first second : Lexeme) : Prop where
  token : second.token = first.token
  head : second.source.head? = first.source.head?
  dots : ['.', '.', '.'] <+: second.source ↔ ['.', '.', '.'] <+: first.source
  spelled : first.token = .literal → Agrees Eq first.spelled second.spelled

theorem agrees_refl {α : Type} (outcome : Except Fault α) : Agrees Eq outcome outcome :=
  .refl (fun _ => .inl rfl) (fun _ => rfl) outcome

theorem Alike.refl (lexeme : Lexeme) : Alike lexeme lexeme :=
  ⟨rfl, rfl, Iff.rfl, fun _ => agrees_refl _⟩

theorem forall₂_alike_refl (lexs : List Lexeme) : List.Forall₂ Alike lexs lexs :=
  List.forall₂_same.mpr fun lexeme _ => .refl lexeme

variable {text trivia taken rest other before inserted after : List Char} {c : Char}
  {token : Token} {lexs : List Lexeme}

theorem FirstToken.taken_of_dot (h : FirstToken text trivia '.' taken rest token) :
    taken = [] := by
  have hread := h.readToken_eq
  rw [readToken_mark (isMark_of_mem (by decide))] at hread
  have happend : taken ++ rest = [] ++ rest := (Prod.mk.inj (Except.ok.inj hread)).2
  exact List.append_cancel_right happend

theorem FirstToken.alike (h : FirstToken text trivia c taken rest token)
    (hother : SameStart rest other)
    (hdots : c = '.' → (['.', '.'] <+: other ↔ ['.', '.'] <+: rest)) :
    Alike ⟨token, c :: (taken ++ rest)⟩ ⟨token, c :: (taken ++ other)⟩ where
  token := rfl
  head := rfl
  dots := by
    rw [List.cons_prefix_cons, List.cons_prefix_cons]
    apply and_congr_right
    rintro rfl
    rw [h.taken_of_dot]
    exact hdots rfl
  spelled := by
    rintro rfl
    exact spelled_agrees h.readToken_eq (h.readToken_other hother)

/-- Three dots stay together unless something is put between two of them. -/
theorem dots_insert (hinserted : IsSpacing inserted)
    (hdots : ¬ (('.' :: before).getLast? = some '.' ∧ after.head? = some '.')) :
    ['.', '.'] <+: before ++ (inserted ++ after) ↔ ['.', '.'] <+: before ++ after := by
  obtain ⟨c, tail, rfl, hblank⟩ := hinserted.exists_head
  have hc : '.' ≠ c := by
    rintro rfl
    cases hblank
  have hhead {dots : List Char} (h : '.' :: dots <+: after) : after.head? = some '.' := by
    obtain ⟨tail, rfl⟩ := h
    rfl
  match before with
  | [] =>
      constructor
      · intro h
        exact absurd (List.cons_prefix_cons.mp h).1 hc
      · intro h
        exact absurd ⟨rfl, hhead h⟩ hdots
  | [d] =>
      constructor
      · intro h
        exact absurd (List.cons_prefix_cons.mp (List.cons_prefix_cons.mp h).2).1 hc
      · intro h
        obtain ⟨rfl, hafter⟩ := List.cons_prefix_cons.mp h
        exact absurd ⟨rfl, hhead hafter⟩ hdots
  | d :: e :: before => simp [List.cons_prefix_cons]

/-- Behind a line comment that is left open, only a line feed makes a difference. -/
theorem skipTrivia_lineComment_end (h : '\n' ∉ text.dropLast) :
    skipTrivia .lineComment text = .ok [] := by
  induction text with
  | nil => rfl
  | cons c text ih =>
      cases text with
      | nil =>
          rw [skipTrivia]
          split <;> rfl
      | cons d text =>
          rw [List.dropLast_cons_cons, List.mem_cons, not_or] at h
          rw [skipTrivia, if_neg (Ne.symm h.1)]
          exact ih h.2

theorem lexemes_insert_end (hinserted : IsSpacing inserted) (hskips : SkipsTo before [])
    (hopen : IsOpenComment before → '\n' ∉ inserted.dropLast) :
    lexemes (before ++ inserted) = .ok [] := by
  have hend : skipTrivia .blanks (before ++ inserted) = .ok [] := by
    cases hskips with
    | closed htrivia hbefore _ =>
        rw [List.append_nil] at hbefore
        subst hbefore
        have hskip := (htrivia.append hinserted.isTrivia).skip []
        rwa [List.append_nil] at hskip
    | commentOpen hcomment _ =>
        have hline := hopen hcomment
        obtain ⟨trivia, comment, htrivia, hcomment, rfl⟩ := hcomment
        obtain ⟨c, tail, rfl, -⟩ := hinserted.exists_head
        rw [List.append_assoc, htrivia.skip, List.cons_append, List.cons_append, skipTrivia]
        apply skipTrivia_lineComment_end
        rw [List.dropLast_append_cons, List.mem_append, not_or]
        exact ⟨hcomment, hline⟩
  rw [lexemes_eq, hend]
  rfl

theorem FirstToken.eq_before {middle : List Char}
    (h : FirstToken (before ++ after) trivia c taken (middle ++ after) token) :
    before = trivia ++ c :: (taken ++ middle) := by
  have happend : before ++ after = trivia ++ c :: (taken ++ middle) ++ after := by
    rw [h.text_eq]
    simp
  exact List.append_cancel_right happend

/-- The first token is kept if something is inserted behind it. -/
theorem FirstToken.insert {middle : List Char} {others : List Lexeme}
    (h : FirstToken (trivia ++ c :: (taken ++ middle) ++ after) trivia c taken (middle ++ after)
      token)
    (hinserted : IsSpacing inserted)
    (hdots : ¬ ((trivia ++ c :: (taken ++ middle)).getLast? = some '.' ∧ after.head? = some '.'))
    (hothers : lexemes (middle ++ (inserted ++ after)) = .ok others) :
    ∃ lexeme, lexemes (trivia ++ c :: (taken ++ middle) ++ (inserted ++ after)) =
        .ok (lexeme :: others) ∧ Alike ⟨token, c :: (taken ++ (middle ++ after))⟩ lexeme := by
  have hsame : SameStart (middle ++ after) (middle ++ (inserted ++ after)) := by
    cases middle with
    | nil =>
        obtain ⟨d, tail, rfl, hblank⟩ := hinserted.exists_head
        exact .inr ⟨d, hblank, rfl⟩
    | cons d middle => exact .inl rfl
  have hdot : c = '.' → (['.', '.'] <+: middle ++ (inserted ++ after) ↔
      ['.', '.'] <+: middle ++ after) := by
    rintro rfl
    apply dots_insert hinserted
    rintro ⟨hlast, hhead⟩
    rw [h.taken_of_dot, List.nil_append] at hdots
    exact hdots ⟨by rw [List.getLast?_append, hlast]; rfl, hhead⟩
  refine ⟨_, ?_, h.alike hsame hdot⟩
  rw [List.append_assoc, List.cons_append, List.append_assoc]
  exact h.lexemes_other hsame hothers

/-- A blank or a comment is put into a script at the boundary of a token, and not between two
dots that belong together. -/
structure IsInsertion (before inserted after : List Char) (lexs : List Lexeme) : Prop where
  isSpacing : IsSpacing inserted
  lexemes_eq : lexemes (before ++ after) = .ok lexs
  isBoundary : IsBoundary lexs (before ++ after) after
  dots : ¬ (before.getLast? = some '.' ∧ after.head? = some '.')

/-- Where something is put behind the first token, it is put into the rest of the script. -/
theorem IsInsertion.behind {middle : List Char} {more : List Lexeme}
    (h : IsInsertion (trivia ++ c :: (taken ++ middle)) inserted after lexs)
    (hmore : lexemes (middle ++ after) = .ok more)
    (hboundary : IsBoundary more (middle ++ after) after) :
    IsInsertion middle inserted after more where
  isSpacing := h.isSpacing
  lexemes_eq := hmore
  isBoundary := hboundary
  dots := by
    rintro ⟨hlast, hhead⟩
    apply h.dots
    rw [← List.cons_append, ← List.append_assoc, List.getLast?_append, hlast]
    exact ⟨rfl, hhead⟩

/-- Putting blanks or a comment at the boundary of a token keeps all tokens. -/
theorem lexemes_insert (h : IsInsertion before inserted after lexs)
    (hopen : after = [] → EndsInComment lexs (before ++ after) → '\n' ∉ inserted.dropLast) :
    ∃ more, lexemes (before ++ (inserted ++ after)) = .ok more ∧ List.Forall₂ Alike lexs more := by
  induction hlength : (before ++ after).length using Nat.strongRecOn generalizing before lexs with
  | ind length ih =>
      subst hlength
      have htrivia := h.isSpacing.isTrivia
      have hstart (hafter : after = before ++ after) :
          lexemes (before ++ (inserted ++ after)) = .ok lexs := by
        have hbefore : [] = before := List.append_cancel_right hafter
        subst hbefore
        rw [List.nil_append, lexemes_congr (htrivia.skip _)]
        exact h.lexemes_eq
      rcases lexemes_cases h.lexemes_eq with
        ⟨rfl, hskips⟩ | ⟨trivia, c, taken, rest, token, more, hfirst, hmore, rfl⟩
      · cases h.isBoundary with
        | start hafter => exact ⟨[], hstart hafter, .nil⟩
        | finish hafter =>
            subst hafter
            rw [List.append_nil] at hskips hopen ⊢
            have hend := lexemes_insert_end h.isSpacing hskips fun hcomment =>
              hopen rfl ⟨before, rfl, hcomment⟩
            exact ⟨[], hend, .nil⟩
        | tokenStart hmem _ => cases hmem
        | tokenEnd hmem _ => cases hmem
      · rcases h.isBoundary.cases hfirst hmore with hafter | hafter | ⟨⟨middle, rfl⟩, hinner⟩
        · exact ⟨_, hstart hafter, forall₂_alike_refl _⟩
        · have hbefore : before = trivia := by
            have happend := hfirst.text_eq
            rw [← hafter] at happend
            exact List.append_cancel_right happend
          subst hbefore
          refine ⟨_, ?_, forall₂_alike_refl _⟩
          rw [lexemes_congr (hfirst.isTrivia.skip _), lexemes_congr (htrivia.skip _),
            ← lexemes_congr (hfirst.isTrivia.skip after)]
          exact h.lexemes_eq
        · have hbefore := hfirst.eq_before
          subst hbefore
          obtain ⟨others, hothers, halike⟩ := ih _ hfirst.length_lt (h.behind hmore hinner)
            (fun hnil hcomment => hopen hnil (hcomment.cons hfirst)) rfl
          obtain ⟨lexeme, hlexemes, hlexeme⟩ := hfirst.insert h.isSpacing h.dots hothers
          exact ⟨_, hlexemes, .cons hlexeme halike⟩

end Tokens

end FeatureCompiler.Script
