import FeatureCompiler.Json.Fault
import FeatureCompiler.Outcome
import FeatureCompiler.Text.Hex

/-!
JSON string literals. Readers start after the opening quote. Numeric escapes are four bytes of
hexadecimal digits, and characters above the basic plane are pairs of them.
-/

namespace FeatureCompiler.Json

/-- The number of a numeric escape. -/
def hexEscape (text : List Char) : Except Fault (Nat × List Char) :=
  if Text.byteCount text < 4 then .error (.atEnd .endInString)
  else
    match text with
    | a :: b :: c :: d :: rest =>
        match Text.hexValue? [a, b, c, d] with
        | some code => .ok (code, rest)
        | none => .error ⟨.invalidEscape, text, 4⟩
    | _ => .error ⟨.invalidEscape, text, 4⟩

/-- The second half of a pair, after the first. -/
def secondHalf : List Char → Except Fault (Nat × List Char)
  | '\\' :: 'u' :: rest => do
      let (low, after) ← hexEscape rest
      if 0xdc00 ≤ low ∧ low ≤ 0xdfff then .ok (low, after) else .error ⟨.loneSurrogate, after, 0⟩
  | ['\\'] => .error (.atEnd .endInString)
  | '\\' :: rest => .error ⟨.unfinishedPair, rest, 1⟩
  | [] => .error (.atEnd .endInString)
  | rest => .error ⟨.unfinishedPair, rest, 1⟩

/-- What follows `\u`. -/
def unicodeEscape (text : List Char) : Except Fault (Char × List Char) := do
  let (code, rest) ← hexEscape text
  if 0xdc00 ≤ code ∧ code ≤ 0xdfff then .error ⟨.loneSurrogate, rest, 0⟩
  else if 0xd800 ≤ code ∧ code ≤ 0xdbff then do
    let (low, after) ← secondHalf rest
    return (Char.ofNat (0x10000 + (code - 0xd800) * 0x400 + (low - 0xdc00)), after)
  else return (Char.ofNat code, rest)

/-- What follows a backslash. -/
def escape : List Char → Except Fault (Char × List Char)
  | [] => .error (.atEnd .endInString)
  | '"' :: rest => .ok ('"', rest)
  | '\\' :: rest => .ok ('\\', rest)
  | '/' :: rest => .ok ('/', rest)
  | 'b' :: rest => .ok ('\x08', rest)
  | 'f' :: rest => .ok ('\x0c', rest)
  | 'n' :: rest => .ok ('\n', rest)
  | 'r' :: rest => .ok ('\r', rest)
  | 't' :: rest => .ok ('\t', rest)
  | 'u' :: rest => unicodeEscape rest
  | rest => .error ⟨.invalidEscape, rest, 1⟩

theorem hexEscape_length_lt {text rest : List Char} {code : Nat}
    (h : hexEscape text = .ok (code, rest)) : rest.length < text.length := by
  unfold hexEscape at h
  split at h
  · cases h
  · split at h
    · split at h
      · cases h
        simp only [List.length_cons]
        omega
      · cases h
    · cases h

theorem secondHalf_length_lt {text rest : List Char} {low : Nat}
    (h : secondHalf text = .ok (low, rest)) : rest.length < text.length := by
  unfold secondHalf at h
  split at h
  case h_1 =>
    obtain ⟨⟨_, after⟩, hhex, h⟩ := bind_eq_ok h
    have := hexEscape_length_lt hhex
    dsimp only at h
    split at h
    · cases h
      simp only [List.length_cons]
      omega
    · cases h
  all_goals cases h

theorem unicodeEscape_length_lt {text rest : List Char} {c : Char}
    (h : unicodeEscape text = .ok (c, rest)) : rest.length < text.length := by
  obtain ⟨⟨code, after⟩, hhex, h⟩ := bind_eq_ok h
  have := hexEscape_length_lt hhex
  dsimp only at h
  split at h
  · cases h
  · split at h
    · obtain ⟨⟨low, final⟩, hlow, h⟩ := bind_eq_ok h
      have := secondHalf_length_lt hlow
      simp only [pure, Except.pure, Except.ok.injEq, Prod.mk.injEq] at h
      rw [← h.2]
      omega
    · simp only [pure, Except.pure, Except.ok.injEq, Prod.mk.injEq] at h
      rw [← h.2]
      omega

theorem escape_length_lt {text rest : List Char} {c : Char}
    (h : escape text = .ok (c, rest)) : rest.length < text.length := by
  unfold escape at h
  split at h
  case h_10 =>
    have := unicodeEscape_length_lt h
    simp only [List.length_cons]
    omega
  all_goals
    cases h <;> simp

/-- The text of a string literal, and what follows its closing quote. -/
def readString (text : List Char) : Except Fault (List Char × List Char) :=
  match text with
  | [] => .error (.atEnd .endInString)
  | '"' :: rest => .ok ([], rest)
  | '\\' :: rest =>
      match _hescape : escape rest with
      | .error fault => .error fault
      | .ok (c, after) => do
          let (value, final) ← readString after
          return (c :: value, final)
  | c :: rest =>
      if c.toNat < 0x20 then .error ⟨.controlCharacter, c :: rest, 1⟩
      else do
        let (value, final) ← readString rest
        return (c :: value, final)
termination_by text.length
decreasing_by
  · have := escape_length_lt _hescape
    simp only [List.length_cons]
    omega
  · simp

theorem readString_length_lt {text rest value : List Char}
    (h : readString text = .ok (value, rest)) : rest.length < text.length := by
  fun_induction readString text generalizing value rest with
  | case1 | case3 | case5 => cases h
  | case2 => cases h; simp
  | case4 _ _ _ hescape ih =>
      obtain ⟨_, hrest, h⟩ := bind_eq_ok h
      cases h
      have := escape_length_lt hescape
      have := ih hrest
      simp only [List.length_cons]
      omega
  | case6 _ _ _ _ _ ih =>
      obtain ⟨_, hrest, h⟩ := bind_eq_ok h
      cases h
      have := ih hrest
      simp only [List.length_cons]
      omega

end FeatureCompiler.Json
