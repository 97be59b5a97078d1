import FeatureCompiler.Proofs.Text.Pieces
import FeatureCompiler.Text.Utf8
import Mathlib.Algebra.Group.Nat.Defs

/-!
Texts as bytes in UTF-8, and back. A text is read as it was written. Other bytes are read as a text
that differs from them, but not in the characters of one byte: these are read where they stand, and
nothing else is read as one of them. The state between two bytes tells which characters can still
come of it, and none of these is written with one byte.
-/

namespace FeatureCompiler.Text

section Writing

/-- The last digits of a code point to the base 64, as bytes that continue a character. -/
def continuation (code : Nat) : Nat → Bytes
  | 0 => []
  | n + 1 => UInt8.ofNat (code / 64 ^ n % 64 + 0x80) :: continuation code n

/-- How a code point is written: so many bytes continue it, and this number is added to the digits
before them to make the first byte. -/
inductive Leads (code : Nat) : Nat → Nat → Prop where
  | one : code < 0x80 → Leads code 0 0
  | two : 0x80 ≤ code → code < 0x800 → Leads code 1 0xc0
  | three : 0x800 ≤ code → code < 0xd800 ∨ 0xe000 ≤ code ∧ code < 0x10000 → Leads code 2 0xe0
  | four : 0x10000 ≤ code → code < 0x110000 → Leads code 3 0xf0

theorem exists_leads (c : Char) :
    ∃ n base, Leads c.toNat n base ∧
      String.utf8EncodeChar c =
        UInt8.ofNat (c.toNat / 64 ^ n + base) :: continuation c.toNat n := by
  have hvalid : c.toNat < 0xd800 ∨ 0xdfff < c.toNat ∧ c.toNat < 0x110000 := c.valid
  have hval : c.val.toNat = c.toNat := rfl
  simp only [String.utf8EncodeChar, hval]
  generalize c.toNat = code at hvalid
  -- no digit before the continuing ones is cut off, so the remainders in first bytes do nothing
  split
  · exact ⟨0, 0, .one (by omega), by simp [continuation]⟩
  · split
    · refine ⟨1, 0xc0, .two (by omega) (by omega), ?_⟩
      rw [Nat.mod_eq_of_lt (show code / 64 < 32 by omega)]
      simp [continuation]
    · split
      · refine ⟨2, 0xe0, .three (by omega) (by omega), ?_⟩
        rw [Nat.mod_eq_of_lt (show code / 4096 < 16 by omega)]
        simp [continuation]
      · refine ⟨3, 0xf0, .four (by omega) (by omega), ?_⟩
        rw [Nat.mod_eq_of_lt (show code / 262144 < 8 by omega)]
        simp [continuation]

theorem utf8_cons (c : Char) (rest : List Char) :
    utf8 (c :: rest) = String.utf8EncodeChar c ++ utf8 rest :=
  List.flatMap_cons

theorem utf8EncodeChar_of_lt {c : Char} (hc : c.toNat < 0x80) :
    String.utf8EncodeChar c = [UInt8.ofNat c.toNat] := by
  obtain ⟨n, base, hleads, hbytes⟩ := exists_leads c
  cases hleads with
  | one => rw [hbytes, Nat.pow_zero, Nat.div_one]; rfl
  | two | three | four => omega

theorem le_of_mem_continuation {byte : UInt8} {code n : Nat} (h : byte ∈ continuation code n) :
    0x80 ≤ byte.toNat := by
  induction n with
  | zero => cases h
  | succ n ih =>
      rcases List.mem_cons.mp h with rfl | h
      · rw [UInt8.toNat_ofNat_of_lt' (show _ < 256 by omega)]
        omega
      · exact ih h

/-- A byte of one bit less is written for the character of its number only. -/
theorem mem_of_mem_utf8 {byte : UInt8} (hbyte : byte.toNat < 0x80) {text : List Char}
    (h : byte ∈ utf8 text) : Char.ofNat byte.toNat ∈ text := by
  obtain ⟨c, hc, hmem⟩ := List.mem_flatMap.mp h
  obtain ⟨n, base, hleads, hbytes⟩ := exists_leads c
  rw [hbytes] at hmem
  rcases List.mem_cons.mp hmem with rfl | hmem
  · cases hleads with
    | one hcode =>
        rw [Nat.pow_zero, Nat.div_one, Nat.add_zero,
          UInt8.toNat_ofNat_of_lt' (show _ < 256 by omega), Char.ofNat_toNat]
        exact hc
    | two | three | four =>
        rw [UInt8.toNat_ofNat_of_lt' (show _ < 256 by omega)] at hbyte
        omega
  · exact absurd (le_of_mem_continuation hmem) (Nat.not_le.mpr hbyte)

end Writing

section Reading

/-- The next digit to the base 64 behind the digits before it. -/
theorem div_pow_succ_mul_add {code n : Nat} :
    code / 64 ^ (n + 1) * 64 + code / 64 ^ n % 64 = code / 64 ^ n := by
  rw [Nat.pow_succ, ← Nat.div_div_eq_div_mul]
  omega

/-- What is started with the first digits of a code point is ended by the others. The first of these
has to be among the bytes that can come next. -/
theorem lossyFrom_continuation (c : Char) {started : Started}
    (hcode : started.code = c.toNat / 64 ^ (started.owed + 1))
    (hlow : started.low ≤ c.toNat / 64 ^ started.owed % 64 + 0x80)
    (hhigh : c.toNat / 64 ^ started.owed % 64 + 0x80 ≤ started.high) (rest : Bytes) :
    lossyFrom (some started) (continuation c.toNat (started.owed + 1) ++ rest) =
      c :: lossyFrom none rest := by
  obtain ⟨code, owed, low, high⟩ := started
  dsimp only at hcode hlow hhigh ⊢
  induction owed generalizing code low high with
  | zero =>
      have hbyte : (UInt8.ofNat (c.toNat / 64 ^ 0 % 64 + 0x80)).toNat =
          c.toNat / 64 ^ 0 % 64 + 0x80 :=
        UInt8.toNat_ofNat_of_lt' (show _ < 256 by omega)
      have hchar : code * 64 + (c.toNat / 64 ^ 0 % 64 + 0x80 - 0x80) = c.toNat := by
        rw [hcode, Nat.add_sub_cancel, div_pow_succ_mul_add, Nat.pow_zero, Nat.div_one]
      rw [continuation, List.cons_append, lossyFrom, readByte, hbyte, if_pos ⟨hlow, hhigh⟩, hchar]
      simp [continuation, Char.ofNat_toNat]
  | succ owed ih =>
      have hbyte : (UInt8.ofNat (c.toNat / 64 ^ (owed + 1) % 64 + 0x80)).toNat =
          c.toNat / 64 ^ (owed + 1) % 64 + 0x80 :=
        UInt8.toNat_ofNat_of_lt' (show _ < 256 by omega)
      have hcode' : code * 64 + (c.toNat / 64 ^ (owed + 1) % 64 + 0x80 - 0x80) =
          c.toNat / 64 ^ (owed + 1) := by
        rw [hcode, Nat.add_sub_cancel, div_pow_succ_mul_add]
      rw [continuation, List.cons_append, lossyFrom, readByte, hbyte, if_pos ⟨hlow, hhigh⟩, hcode']
      exact ih _ _ _ rfl (by omega) (by omega)

/-- The first byte of a character starts it. -/
theorem exists_started {code n base : Nat} (h : Leads code (n + 1) base) :
    ∃ started, Started.ofByte? (code / 64 ^ (n + 1) + base) = some started ∧
      started.owed = n ∧ started.code = code / 64 ^ (n + 1) ∧
      started.low ≤ code / 64 ^ n % 64 + 0x80 ∧ code / 64 ^ n % 64 + 0x80 ≤ started.high := by
  generalize hbyte : code / 64 ^ (n + 1) + base = byte
  -- by its size, a code point has this first byte in one of the ranges only
  cases h with
  | two | three | four =>
      unfold Started.ofByte?
      repeat' split
      all_goals first
        | omega
        | refine ⟨_, rfl, rfl, ?_⟩
          dsimp only
          omega

theorem lossyFrom_utf8EncodeChar (c : Char) (rest : Bytes) :
    lossyFrom none (String.utf8EncodeChar c ++ rest) = c :: lossyFrom none rest := by
  obtain ⟨n, base, hleads, hbytes⟩ := exists_leads c
  have hbyte : (UInt8.ofNat (c.toNat / 64 ^ n + base)).toNat = c.toNat / 64 ^ n + base :=
    UInt8.toNat_ofNat_of_lt' (show _ < 256 by cases hleads <;> omega)
  rw [hbytes, List.cons_append, lossyFrom, readByte, readFirst, hbyte]
  cases n with
  | zero =>
      cases hleads with
      | one hcode =>
          rw [Nat.pow_zero, Nat.div_one, Nat.add_zero, if_pos hcode, Char.ofNat_toNat]
          rfl
  | succ n =>
      have hlarge : ¬ c.toNat / 64 ^ (n + 1) + base < 0x80 := by cases hleads <;> omega
      obtain ⟨started, hstarted, rfl, hcode, hlow, hhigh⟩ := exists_started hleads
      rw [if_neg hlarge, hstarted]
      exact lossyFrom_continuation c hcode hlow hhigh rest

/-- A text is read as it was written. -/
theorem lossy_utf8 (text : List Char) : lossy (utf8 text) = text := by
  induction text with
  | nil => rfl
  | cons c rest ih =>
      rw [lossy, utf8_cons, lossyFrom_utf8EncodeChar]
      exact congrArg (c :: ·) ih

end Reading

section Replacing

theorem toNat_ofNat_of_isValidChar {n : Nat} (h : n.isValidChar) : (Char.ofNat n).toNat = n := by
  rw [Char.ofNat, dif_pos h]
  rfl

theorem toNat_ofNat_of_small {n : Nat} (h : n < 0x80) : (Char.ofNat n).toNat = n :=
  toNat_ofNat_of_isValidChar (.inl (Nat.lt_trans h (by decide)))

namespace Started

/-- The least of the characters that can come of what is started. -/
def least (started : Started) : Nat :=
  (started.code * 64 + (started.low - 0x80)) * 64 ^ started.owed

/-- The first character after all that can come of what is started. -/
def limit (started : Started) : Nat :=
  (started.code * 64 + (started.high - 0x80) + 1) * 64 ^ started.owed

/-- Only characters can come of what is started, and none that is written with one byte. -/
structure Sound (started : Started) : Prop where
  low : 0x80 ≤ started.low
  least : 0x80 ≤ started.least
  valid : started.limit ≤ 0xd800 ∨ 0xe000 ≤ started.least ∧ started.limit ≤ 0x110000

theorem sound_of_ofByte? {byte : Nat} {started : Started} (h : ofByte? byte = some started) :
    started.Sound := by
  unfold ofByte? at h
  repeat' split at h
  all_goals first
    | simp only [reduceCtorEq] at h
    | obtain rfl := Option.some.inj h
      constructor <;> dsimp only [Started.least, Started.limit] <;> omega

variable {started : Started} {byte : Nat}

/-- The state after a byte that goes on with a character. -/
theorem Sound.next (h : started.Sound) (hlow : started.low ≤ byte) (hhigh : byte ≤ started.high)
    {owed : Nat} (howed : started.owed = owed + 1) :
    Sound ⟨started.code * 64 + (byte - 0x80), owed, 0x80, 0xbf⟩ := by
  have hfirst := h.low
  have hleast : started.least ≤
      Started.least ⟨started.code * 64 + (byte - 0x80), owed, 0x80, 0xbf⟩ := by
    rw [Started.least, Started.least, howed, Nat.pow_succ', ← Nat.mul_assoc]
    exact Nat.mul_le_mul_right _ (by dsimp only; omega)
  have hlimit : Started.limit ⟨started.code * 64 + (byte - 0x80), owed, 0x80, 0xbf⟩ ≤
      started.limit := by
    rw [Started.limit, Started.limit, howed, Nat.pow_succ', ← Nat.mul_assoc]
    exact Nat.mul_le_mul_right _ (by dsimp only; omega)
  refine ⟨Nat.le_refl _, Nat.le_trans h.least hleast, ?_⟩
  rcases h.valid with hvalid | ⟨hvalid, hbound⟩
  · exact .inl (Nat.le_trans hlimit hvalid)
  · exact .inr ⟨Nat.le_trans hvalid hleast, Nat.le_trans hlimit hbound⟩

/-- The character that a last byte ends. -/
theorem Sound.last (h : started.Sound) (hlow : started.low ≤ byte) (hhigh : byte ≤ started.high)
    (howed : started.owed = 0) :
    0x80 ≤ (Char.ofNat (started.code * 64 + (byte - 0x80))).toNat := by
  obtain ⟨hfirst, hleast, hvalid⟩ := h
  rw [Started.least, howed, Nat.pow_zero, Nat.mul_one] at hleast hvalid
  rw [Started.limit, howed, Nat.pow_zero, Nat.mul_one] at hvalid
  have hchar : (started.code * 64 + (byte - 0x80)).isValidChar := by
    rcases hvalid with hvalid | hvalid
    · exact .inl (by omega)
    · exact .inr (by omega)
  rw [toNat_ofNat_of_isValidChar hchar]
  omega

end Started

/-- Nothing is started, or something sound. -/
def IsSound (started? : Option Started) : Prop :=
  ∀ started ∈ started?, started.Sound

theorem isSound_readFirst (byte : Nat) : IsSound (readFirst byte).2 := by
  intro started hstarted
  rw [readFirst] at hstarted
  split at hstarted
  · cases hstarted
  · split at hstarted
    · next first hfirst =>
        obtain rfl := Option.some.inj hstarted
        exact Started.sound_of_ofByte? hfirst
    · cases hstarted

theorem isSound_readByte (byte : Nat) {started? : Option Started} (h : IsSound started?) :
    IsSound (readByte byte started?).2 := by
  fun_cases readByte byte started? with
  | case1 => exact isSound_readFirst byte
  | case2 => intro next hnext; cases hnext
  | case3 started hbyte code owed howed =>
      intro next hnext
      obtain rfl := Option.some.inj hnext
      exact (h started rfl).next hbyte.1 hbyte.2 howed
  | case4 => exact isSound_readFirst byte

variable {c : Char}

theorem ne_replacement (hc : c.toNat < 0x80) : c ≠ replacement := by
  rintro rfl
  exact absurd hc (by decide)

theorem mem_readFirst (hc : c.toNat < 0x80) {byte : Nat} :
    c ∈ (readFirst byte).1 ↔ byte = c.toNat := by
  rw [readFirst]
  split
  · next hbyte =>
      rw [List.mem_singleton, ← Char.toNat_inj, toNat_ofNat_of_small hbyte]
      exact eq_comm
  · refine iff_of_false ?_ (by omega)
    split
    · exact List.not_mem_nil
    · exact mt List.mem_singleton.mp (ne_replacement hc)

/-- A character of one byte is read only with the byte of its number. -/
theorem mem_readByte (hc : c.toNat < 0x80) {byte : Nat} {started? : Option Started}
    (h : IsSound started?) : c ∈ (readByte byte started?).1 ↔ byte = c.toNat := by
  have hlarge {started : Started} (hstarted : started ∈ started?) (hlow : started.low ≤ byte) :
      byte ≠ c.toNat := by
    have hfirst := (h started hstarted).low
    omega
  fun_cases readByte byte started? with
  | case1 => exact mem_readFirst hc
  | case2 started hbyte code howed =>
      refine iff_of_false ?_ (hlarge rfl hbyte.1)
      have hlast : 0x80 ≤ (Char.ofNat code).toNat := (h started rfl).last hbyte.1 hbyte.2 howed
      intro hmem
      rw [List.mem_singleton.mp hmem] at hc
      omega
  | case3 started hbyte => exact iff_of_false List.not_mem_nil (hlarge rfl hbyte.1)
  | case4 => rw [List.mem_cons, or_iff_right (ne_replacement hc), mem_readFirst hc]

theorem mem_lossyFrom_iff (hc : c.toNat < 0x80) {bytes : Bytes} {started? : Option Started}
    (h : IsSound started?) : c ∈ lossyFrom started? bytes ↔ UInt8.ofNat c.toNat ∈ bytes := by
  induction bytes generalizing started? with
  | nil =>
      refine iff_of_false ?_ List.not_mem_nil
      rw [lossyFrom]
      split
      · exact mt List.mem_singleton.mp (ne_replacement hc)
      · exact List.not_mem_nil
  | cons byte rest ih =>
      rw [lossyFrom, List.mem_append, mem_readByte hc h, ih (isSound_readByte _ h), List.mem_cons,
        ← UInt8.toNat_inj, UInt8.toNat_ofNat_of_lt' (Nat.lt_trans hc (by decide)), eq_comm]

/-- A character of one byte is read where its byte stands, and only there. -/
theorem mem_lossy_iff (hc : c.toNat < 0x80) {bytes : Bytes} :
    c ∈ lossy bytes ↔ UInt8.ofNat c.toNat ∈ bytes :=
  mem_lossyFrom_iff hc nofun

/-- Of what is started comes a character of several bytes or a replacement. -/
theorem exists_large_of_started {started : Started} (h : started.Sound) (bytes : Bytes) :
    ∃ c ∈ lossyFrom (some started) bytes, 0x80 ≤ c.toNat := by
  induction bytes generalizing started with
  | nil => exact ⟨replacement, List.mem_singleton.mpr rfl, by decide⟩
  | cons byte rest ih =>
      rw [lossyFrom, readByte]
      dsimp only
      split
      · next hbyte =>
          split
          · next howed => exact ⟨_, List.mem_cons_self, h.last hbyte.1 hbyte.2 howed⟩
          · next owed howed => exact ih (h.next hbyte.1 hbyte.2 howed)
      · exact ⟨replacement, List.mem_cons_self, by decide⟩

theorem utf8_lossy_of_small {bytes : Bytes} (h : ∀ c ∈ lossy bytes, c.toNat < 0x80) :
    utf8 (lossy bytes) = bytes := by
  induction bytes with
  | nil => rfl
  | cons byte rest ih =>
      rw [lossy, lossyFrom, readByte, readFirst] at h ⊢
      split at h
      · next hbyte =>
          rw [if_pos hbyte]
          have hchar := toNat_ofNat_of_small hbyte
          have hsmall : (Char.ofNat byte.toNat).toNat < 0x80 := by rwa [hchar]
          rw [List.singleton_append, utf8_cons, utf8EncodeChar_of_lt hsmall, hchar,
            UInt8.ofNat_toNat]
          exact congrArg (byte :: ·) (ih fun c hc => h c (List.mem_cons_of_mem _ hc))
      · split at h
        · next started hstarted =>
            obtain ⟨c, hc, hlarge⟩ :=
              exists_large_of_started (Started.sound_of_ofByte? hstarted) rest
            exact absurd (h c hc) (Nat.not_lt.mpr hlarge)
        · exact absurd (h replacement List.mem_cons_self) (by decide)

/-- No other bytes show as a text of characters of one byte. -/
theorem utf8_lossy_eq_iff {bytes other : Bytes} (hother : ∀ c ∈ lossy other, c.toNat < 0x80) :
    utf8 (lossy bytes) = other ↔ bytes = other := by
  constructor
  · intro h
    have hsame : lossy bytes = lossy other := by rw [← h, lossy_utf8]
    rw [← h, utf8_lossy_of_small (hsame ▸ hother)]
  · rintro rfl
    exact utf8_lossy_of_small hother

end Replacing

theorem bytes_inj {first second : String} : bytes first = bytes second ↔ first = second := by
  refine ⟨fun h => ?_, fun h => h ▸ rfl⟩
  have hlists : first.toList = second.toList := by
    rw [← lossy_utf8 first.toList, ← lossy_utf8 second.toList]
    exact congrArg lossy h
  exact String.toList_inj.mp hlists

end FeatureCompiler.Text
