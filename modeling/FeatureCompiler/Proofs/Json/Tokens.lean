import FeatureCompiler.Json.Reader
import FeatureCompiler.Proofs.Outcome

/-!
The tokens of JSON texts: marks, strings, and runs of the characters that numbers and words are made
of. Which tokens a text has follows from the value that it denotes, since members stand in the order
in which they were written. Whatever else the text decides, such as blanks, escapes and the digits
of numbers, does not show in them.
-/

namespace FeatureCompiler.Json

inductive Token where
  | mark (c : Char)
  | string (content : String)
  | plain
deriving Repr, DecidableEq

/-- The characters that are tokens of their own. -/
def marks : List Char :=
  ['[', ']', '{', '}', ',', ':']

/-- The characters of numbers and words. -/
def isPlain (c : Char) : Bool :=
  c.isAlphanum || c = '-' || c = '+' || c = '.'

mutual

def Value.tokens : Value → List Token
  | .null | .bool _ | .number _ => [.plain]
  | .string content => [.string content]
  | .array items => .mark '[' :: itemTokens items
  | .object members => .mark '{' :: memberTokens members

/-- What follows the opening bracket of an array. -/
def itemTokens : List Value → List Token
  | [] => [.mark ']']
  | item :: items => item.tokens ++ nextItemTokens items

/-- What follows an item of an array. -/
def nextItemTokens : List Value → List Token
  | [] => [.mark ']']
  | item :: items => .mark ',' :: item.tokens ++ nextItemTokens items

/-- What follows the opening brace of an object. -/
def memberTokens : List (String × Value) → List Token
  | [] => [.mark '}']
  | (key, value) :: members =>
      .string key :: .mark ':' :: value.tokens ++ nextMemberTokens members

/-- What follows a member of an object. -/
def nextMemberTokens : List (String × Value) → List Token
  | [] => [.mark '}']
  | (key, value) :: members =>
      .mark ',' :: .string key :: .mark ':' :: value.tokens ++ nextMemberTokens members

end

/-- The tokens take the reader from one text to another. Blanks may stand anywhere, and a plain
token covers as many plain characters as one likes. -/
inductive Scans : List Token → List Char → List Char → Prop where
  | nil (text : List Char) : Scans [] text text
  | blank {c : Char} {tokens : List Token} {text rest : List Char} :
      isBlank c = true → Scans tokens text rest → Scans tokens (c :: text) rest
  | mark {c : Char} {tokens : List Token} {text rest : List Char} :
      c ∈ marks → Scans tokens text rest → Scans (.mark c :: tokens) (c :: text) rest
  | string {content after text rest : List Char} {tokens : List Token} :
      readString text = .ok (content, after) → Scans tokens after rest →
        Scans (.string (String.ofList content) :: tokens) ('"' :: text) rest
  | plain {c : Char} {tokens : List Token} {text rest : List Char} :
      isPlain c = true → Scans (.plain :: tokens) text rest →
        Scans (.plain :: tokens) (c :: text) rest
  | plainEnd {tokens : List Token} {text rest : List Char} :
      Scans tokens text rest → Scans (.plain :: tokens) text rest

namespace Scans

theorem append {first second : List Token} {text middle rest : List Char}
    (hfirst : Scans first text middle) (hsecond : Scans second middle rest) :
    Scans (first ++ second) text rest := by
  induction hfirst with
  | nil => exact hsecond
  | blank hblank _ ih => exact .blank hblank (ih hsecond)
  | mark hmark _ ih => exact .mark hmark (ih hsecond)
  | string hstring _ ih => exact .string hstring (ih hsecond)
  | plain hplain _ ih => exact .plain hplain (ih hsecond)
  | plainEnd _ ih => exact .plainEnd (ih hsecond)

theorem of_skipBlanks {tokens : List Token} {text rest : List Char}
    (h : Scans tokens (skipBlanks text) rest) : Scans tokens text rest := by
  induction text with
  | nil => exact h
  | cons c text ih =>
      rw [skipBlanks, List.dropWhile_cons] at h
      split at h
      · next hblank => exact .blank hblank (ih h)
      · exact h

theorem of_mark {c : Char} {text after : List Char} (hc : c ∈ marks)
    (htext : skipBlanks text = c :: after) : Scans [.mark c] text after := by
  apply of_skipBlanks
  rw [htext]
  exact .mark hc (.nil after)

end Scans

/-- Only plain characters stand between two places of a text. -/
def PlainTo (text rest : List Char) : Prop :=
  ∃ taken, (∀ c ∈ taken, isPlain c = true) ∧ text = taken ++ rest

namespace PlainTo

theorem refl (text : List Char) : PlainTo text text :=
  ⟨[], by simp, rfl⟩

theorem cons {c : Char} {text rest : List Char} (hc : isPlain c = true) (h : PlainTo text rest) :
    PlainTo (c :: text) rest := by
  obtain ⟨taken, htaken, rfl⟩ := h
  refine ⟨c :: taken, ?_, rfl⟩
  rw [List.forall_mem_cons]
  exact ⟨hc, htaken⟩

theorem trans {text middle rest : List Char} (hfirst : PlainTo text middle)
    (hsecond : PlainTo middle rest) : PlainTo text rest := by
  obtain ⟨taken, htaken, rfl⟩ := hfirst
  obtain ⟨more, hmore, rfl⟩ := hsecond
  refine ⟨taken ++ more, ?_, (List.append_assoc taken more rest).symm⟩
  rw [List.forall_mem_append]
  exact ⟨htaken, hmore⟩

theorem scans {text rest : List Char} (h : PlainTo text rest) : Scans [.plain] text rest := by
  obtain ⟨taken, htaken, rfl⟩ := h
  induction taken with
  | nil => exact .plainEnd (.nil rest)
  | cons c taken ih =>
      rw [List.forall_mem_cons] at htaken
      exact .plain htaken.1 (ih htaken.2)

end PlainTo

theorem isPlain_of_isDigit {c : Char} (h : c.isDigit = true) : isPlain c = true := by
  simp [isPlain, Char.isAlphanum, h]

theorem plainTo_takeDigits (limit value : Nat) (text : List Char) :
    PlainTo text (takeDigits limit value text).rest := by
  fun_induction takeDigits limit value text with
  | case1 => exact .refl []
  | case2 value c rest hdigit run ih => exact .cons (isPlain_of_isDigit hdigit.1) ih
  | case3 value c rest => exact .refl (c :: rest)

theorem plainTo_dropDigits (text : List Char) : PlainTo text (text.dropWhile Char.isDigit) := by
  refine ⟨text.takeWhile Char.isDigit, ?_, List.takeWhile_append_dropWhile.symm⟩
  intro c hc
  exact isPlain_of_isDigit (List.all_eq_true.mp List.all_takeWhile c hc)

theorem plainTo_exponentSign (text : List Char) : PlainTo text (exponentSign text).2 := by
  unfold exponentSign
  split
  · exact .cons rfl (.refl _)
  · exact .cons rfl (.refl _)
  · exact .refl _

theorem plainTo_of_readExponent {parts : Parts} {text rest : List Char} {number : Number}
    (h : readExponent parts text = .ok (number, rest)) : PlainTo text rest := by
  have hsign := plainTo_exponentSign text
  unfold readExponent at h
  dsimp only at h
  split at h
  · cases h
  · next c tail heq =>
      have htaken := plainTo_takeDigits exponentLimit (digitValue c) tail
      rw [heq] at hsign
      apply hsign.trans
      split at h
      · cases h
      · next hdigit =>
          apply PlainTo.cons (isPlain_of_isDigit (by simpa using hdigit))
          apply htaken.trans
          split at h
          · split at h
            · cases h
            · cases h
              exact plainTo_dropDigits _
          · rw [Parts.toFloat_rest h]
            exact .refl _

theorem plainTo_of_readTail {parts : Parts} {text rest : List Char} {number : Number}
    (h : readTail parts text = .ok (number, rest)) : PlainTo text rest := by
  unfold readTail at h
  split at h
  · exact .cons rfl (plainTo_of_readExponent h)
  · exact .cons rfl (plainTo_of_readExponent h)
  · rw [Parts.toFloat_rest h]
    exact .refl _

theorem plainTo_of_readFraction {parts : Parts} {text rest : List Char} {number : Number}
    (h : readFraction parts text = .ok (number, rest)) : PlainTo text rest := by
  have htaken := plainTo_takeDigits significandLimit parts.significand text
  unfold readFraction at h
  dsimp only at h
  split at h
  · cases h
  · exact (htaken.trans (plainTo_dropDigits _)).trans (plainTo_of_readTail h)

theorem plainTo_of_readAfterWhole {isNegative : Bool} {n : Nat} {text rest : List Char}
    {number : Number} (h : readAfterWhole isNegative n text = .ok (number, rest)) :
    PlainTo text rest := by
  unfold readAfterWhole at h
  split at h
  · exact .cons rfl (plainTo_of_readFraction h)
  · exact .cons rfl (plainTo_of_readExponent h)
  · exact .cons rfl (plainTo_of_readExponent h)
  · rw [wholeNumber_rest h]
    exact .refl _

theorem plainTo_of_readAfterLong {isNegative : Bool} {n dropped : Nat} {text rest : List Char}
    {number : Number} (h : readAfterLong isNegative n dropped text = .ok (number, rest)) :
    PlainTo text rest := by
  unfold readAfterLong at h
  split at h
  · exact .cons rfl (plainTo_of_readFraction h)
  · exact plainTo_of_readTail h

theorem plainTo_of_readNumber {isNegative : Bool} {text rest : List Char} {number : Number}
    (h : readNumber isNegative text = .ok (number, rest)) : PlainTo text rest := by
  unfold readNumber at h
  split at h
  · cases h
  · split at h
    · cases h
    · exact .cons rfl (plainTo_of_readAfterWhole h)
  · next c tail _ =>
      have htaken := plainTo_takeDigits significandLimit (digitValue c) tail
      split at h
      · cases h
      · next hdigit =>
          apply PlainTo.cons (isPlain_of_isDigit (by simpa using hdigit))
          apply htaken.trans
          dsimp only at h
          split at h
          · exact (plainTo_dropDigits _).trans (plainTo_of_readAfterLong h)
          · exact plainTo_of_readAfterWhole h

theorem plainTo_of_readWord {word text rest : List Char} (hword : word.all isPlain = true)
    (h : readWord word text = .ok rest) : PlainTo text rest := by
  fun_induction readWord word text with
  | case1 =>
      cases h
      exact .refl _
  | case2 | case4 => cases h
  | case3 expected more text ih =>
      rw [List.all_cons, Bool.and_eq_true] at hword
      exact .cons hword.1 (ih hword.2 h)

theorem scans_of_readScalar {text rest : List Char} {value : Value}
    (h : readScalar text = .ok (value, rest)) : Scans value.tokens text rest := by
  unfold readScalar at h
  split at h
  case h_4 =>
    obtain ⟨_, hstring, h⟩ := bind_eq_ok h
    cases h
    exact .string hstring (.nil _)
  case h_5 =>
    obtain ⟨_, hnumber, h⟩ := bind_eq_ok h
    cases h
    exact .plain rfl (plainTo_of_readNumber hnumber).scans
  case h_6 =>
    split at h
    · obtain ⟨_, hnumber, h⟩ := bind_eq_ok h
      cases h
      exact (plainTo_of_readNumber hnumber).scans
    · cases h
  all_goals
    obtain ⟨_, hword, h⟩ := bind_eq_ok h
    cases h
    exact .plain rfl (plainTo_of_readWord rfl hword).scans

theorem scans_of_readKey {text rest : List Char} {key : String}
    (h : readKey text = .ok (key, rest)) :
    Scans [.string key, .mark ':'] ('"' :: text) rest := by
  obtain ⟨⟨content, after⟩, hstring, h⟩ := bind_eq_ok h
  dsimp only at h
  split at h
  · cases h
  · next hcolon =>
      cases h
      exact .string hstring (.of_mark (by decide) hcolon)
  · cases h

theorem scans_of_readNextKey {text rest : List Char} {key : String}
    (h : readNextKey text = .ok (key, rest)) : Scans [.string key, .mark ':'] text rest := by
  unfold readNextKey at h
  split at h
  · cases h
  · next hquote =>
      apply Scans.of_skipBlanks
      rw [hquote]
      exact scans_of_readKey h
  · cases h
  · cases h

/-- What the frames that are still open take after a value, up to the end of the outermost one. -/
def Closes : List Frame → Value → List Char → Value → List Char → Prop
  | [], value, text, whole, rest => value = whole ∧ text = rest
  | .array items :: outer, value, text, whole, rest =>
      ∃ more after, Scans (nextItemTokens more) text after ∧
        Closes outer (.array ((value :: items).reverse ++ more)) after whole rest
  | .object members key :: outer, value, text, whole, rest =>
      ∃ more after, Scans (nextMemberTokens more) text after ∧
        Closes outer (.object (((key, value) :: members).reverse ++ more)) after whole rest

mutual

/-- A value inside open frames is spelled by its tokens, and what follows it closes the frames. -/
theorem scans_of_readValue {frames : List Frame} {text rest : List Char} {whole : Value}
    (h : readValue frames text = .ok (whole, rest)) :
    ∃ value after, Scans value.tokens text after ∧ Closes frames value after whole rest := by
  rw [readValue] at h
  split at h
  · next inner hopen =>
      have hinner : inner.length < text.length := length_lt_of_skipBlanks hopen
      have hmark : Scans [.mark '['] text inner := .of_mark (by decide) hopen
      split at h
      · cases h
      · split at h
        · cases h
        · next after hclose =>
            have hafter : after.length < text.length :=
              Nat.lt_trans (length_lt_of_skipBlanks hclose) hinner
            exact ⟨.array [], after, hmark.append (.of_mark (by decide) hclose),
              closes_of_resume h⟩
        · obtain ⟨item, middle, hitem, more, after, hmore, hcloses⟩ := scans_of_readValue h
          exact ⟨.array (item :: more), after, hmark.append (hitem.append hmore), hcloses⟩
  · next inner hopen =>
      have hinner : inner.length < text.length := length_lt_of_skipBlanks hopen
      have hmark : Scans [.mark '{'] text inner := .of_mark (by decide) hopen
      split at h
      · cases h
      · split at h
        · cases h
        · next after hclose =>
            have hafter : after.length < text.length :=
              Nat.lt_trans (length_lt_of_skipBlanks hclose) hinner
            exact ⟨.object [], after, hmark.append (.of_mark (by decide) hclose),
              closes_of_resume h⟩
        · next quoted hquote =>
            split at h
            · cases h
            · next key final hkey =>
                have hfinal : final.length < text.length :=
                  Nat.lt_trans (readKey_length_lt hkey)
                    (Nat.lt_trans (length_lt_of_skipBlanks hquote) hinner)
                have hname : Scans [.string key, .mark ':'] inner final := by
                  apply Scans.of_skipBlanks
                  rw [hquote]
                  exact scans_of_readKey hkey
                obtain ⟨value, middle, hvalue, more, after, hmore, hcloses⟩ :=
                  scans_of_readValue h
                exact ⟨.object ((key, value) :: more), after,
                  hmark.append (hname.append (hvalue.append hmore)), hcloses⟩
        · cases h
  · cases h
  · split at h
    · cases h
    · next value after hscalar =>
        have hafter : after.length < text.length :=
          Nat.lt_of_lt_of_le (readScalar_length_lt hscalar) (skipBlanks_length_le text)
        exact ⟨value, after, .of_skipBlanks (scans_of_readScalar hscalar), closes_of_resume h⟩
termination_by text.length

theorem closes_of_resume {frames : List Frame} {value whole : Value} {text rest : List Char}
    (h : resume frames value text = .ok (whole, rest)) : Closes frames value text whole rest := by
  rw [resume.eq_def] at h
  split at h
  · cases h
    exact ⟨rfl, rfl⟩
  · next items outer =>
      split at h
      · cases h
      · next after hclose =>
          have hafter : after.length < text.length := length_lt_of_skipBlanks hclose
          refine ⟨[], after, .of_mark (by decide) hclose, ?_⟩
          rw [List.append_nil]
          exact closes_of_resume h
      · next inner hcomma =>
          have hinner : inner.length < text.length := length_lt_of_skipBlanks hcomma
          split at h
          · cases h
          · obtain ⟨item, middle, hitem, more, after, hmore, hcloses⟩ := scans_of_readValue h
            refine ⟨item :: more, after, ?_, ?_⟩
            · exact (Scans.of_mark (by decide) hcomma).append (hitem.append hmore)
            · simpa using hcloses
      · cases h
  · next members key outer =>
      split at h
      · cases h
      · next after hclose =>
          have hafter : after.length < text.length := length_lt_of_skipBlanks hclose
          refine ⟨[], after, .of_mark (by decide) hclose, ?_⟩
          rw [List.append_nil]
          exact closes_of_resume h
      · next inner hcomma =>
          split at h
          · cases h
          · next name final hkey =>
              have hfinal : final.length < text.length :=
                Nat.lt_trans (readNextKey_length_lt hkey) (length_lt_of_skipBlanks hcomma)
              obtain ⟨item, middle, hitem, more, after, hmore, hcloses⟩ := scans_of_readValue h
              refine ⟨(name, item) :: more, after, ?_, ?_⟩
              · exact (Scans.of_mark (by decide) hcomma).append
                  ((scans_of_readNextKey hkey).append (hitem.append hmore))
              · simpa using hcloses
      · cases h
termination_by text.length

end

/-- The tokens of an accepted text are those of the value that it denotes. -/
theorem scans_of_parse {source : String} {value : Value} (h : Value.parse source = .ok value) :
    Scans value.tokens source.toList [] := by
  rw [Value.parse, mapError_eq_ok_iff, readDocument, bind_eq_ok_iff] at h
  obtain ⟨⟨whole, rest⟩, hvalue, h⟩ := h
  obtain ⟨⟨⟩, hend, h⟩ := bind_eq_ok h
  cases h
  obtain ⟨value, after, hscans, rfl, rfl⟩ := scans_of_readValue hvalue
  have hrest : Scans [] after [] := by
    apply Scans.of_skipBlanks
    unfold checkEnd at hend
    split at hend
    · next hnil =>
        rw [hnil]
        exact .nil []
    · cases hend
  simpa using hscans.append hrest

end FeatureCompiler.Json
