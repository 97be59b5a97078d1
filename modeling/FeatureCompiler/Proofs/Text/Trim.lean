import FeatureCompiler.Text.Blank
import Mathlib.Data.List.TakeWhile

/-!
What trimming leaves of a text: nothing blank at its ends, and all of it if nothing blank was there.
Only blanks are taken away, and blanks that are put around a text do not count.
-/

namespace FeatureCompiler.Text

/-- Neither the first nor the last character is blank. -/
def IsTrimmed (text : List Char) : Prop :=
  (∀ c ∈ text.head?, isBlank c = false) ∧ ∀ c ∈ text.getLast?, isBlank c = false

theorem IsTrimmed.enclosed {first last : Char} (hfirst : isBlank first = false)
    (hlast : isBlank last = false) (inner : List Char) : IsTrimmed (first :: inner ++ [last]) := by
  constructor
  · simpa using hfirst
  · rw [List.getLast?_concat]
    simpa using hlast

theorem IsTrimmed.of_forall {text : List Char} (h : ∀ c ∈ text, isBlank c = false) :
    IsTrimmed text :=
  ⟨fun c hc => h c (List.mem_of_head? hc), fun c hc => h c (List.mem_of_getLast? hc)⟩

theorem trimStart_of_head {text : List Char} (h : ∀ c ∈ text.head?, isBlank c = false) :
    trimStart text = text := by
  cases text with
  | nil => rfl
  | cons c rest =>
      have hc : isBlank c = false := h c rfl
      simp [trimStart, hc]

theorem isBlank_head_trimStart (text : List Char) :
    ∀ c ∈ (trimStart text).head?, isBlank c = false := by
  intro c hc
  have h := List.head?_dropWhile_not isBlank text
  rw [trimStart, Option.mem_def] at hc
  rw [hc] at h
  exact h

theorem trimEnd_of_getLast {text : List Char} (h : ∀ c ∈ text.getLast?, isBlank c = false) :
    trimEnd text = text := by
  have hreverse : trimStart text.reverse = text.reverse := by
    apply trimStart_of_head
    rwa [List.head?_reverse]
  calc trimEnd text = (trimStart text.reverse).reverse := rfl
    _ = text := by rw [hreverse, List.reverse_reverse]

theorem isBlank_getLast_trimEnd {text : List Char} :
    ∀ c ∈ (trimEnd text).getLast?, isBlank c = false := by
  rw [trimEnd, List.getLast?_reverse]
  exact isBlank_head_trimStart text.reverse

theorem trimEnd_isPrefixOf (text : List Char) : trimEnd text <+: text := by
  have h := List.dropWhile_suffix isBlank (l := text.reverse)
  rw [← List.reverse_prefix, List.reverse_reverse] at h
  exact h

/-- Trimming at the end goes no further than the last character that is not blank. -/
theorem trimEnd_append {first : List Char} {c : Char} (hlast : first.getLast? = some c)
    (hc : isBlank c = false) (rest : List Char) :
    trimEnd (first ++ rest) = first ++ trimEnd rest := by
  have hfirst : first.reverse.dropWhile isBlank = first.reverse := by
    apply trimStart_of_head
    rw [List.head?_reverse, hlast]
    simpa using hc
  rw [trimEnd, List.reverse_append, List.dropWhile_append, hfirst]
  split
  · next hempty => simp [trimEnd, List.isEmpty_iff.mp hempty]
  · simp [trimEnd]

theorem trim_of_isTrimmed {text : List Char} (h : IsTrimmed text) : trim text = text := by
  rw [trim, trimStart_of_head h.1, trimEnd_of_getLast h.2]

theorem isTrimmed_trim (text : List Char) : IsTrimmed (trim text) := by
  refine ⟨?_, isBlank_getLast_trimEnd⟩
  intro c hc
  apply isBlank_head_trimStart text
  obtain ⟨rest, hrest⟩ := trimEnd_isPrefixOf (trimStart text)
  rw [trim, Option.mem_def] at hc
  rw [← hrest, List.head?_append, hc]
  rfl

theorem notMem_of_isBlank {c : Char} (hc : isBlank c = false) {blanks : List Char}
    (hblanks : ∀ d ∈ blanks, isBlank d = true) : c ∉ blanks := by
  intro hmem
  rw [hblanks c hmem] at hc
  cases hc

/-- Blanks around a text do not count. -/
theorem trim_blanks {before after : List Char} (hbefore : ∀ c ∈ before, isBlank c = true)
    (hafter : ∀ c ∈ after, isBlank c = true) (text : List Char) :
    trim (before ++ text ++ after) = trim text := by
  have hend (first : List Char) : trimEnd (first ++ after) = trimEnd first := by
    rw [trimEnd, List.reverse_append, List.dropWhile_append_of_pos, trimEnd]
    intro c hc
    exact hafter c (List.mem_reverse.mp hc)
  have hstart : trimStart (before ++ text ++ after) = trimStart (text ++ after) := by
    rw [List.append_assoc]
    exact List.dropWhile_append_of_pos hbefore
  rw [trim, trim, hstart, trimStart, List.dropWhile_append]
  split
  · next hempty =>
      rw [trimStart, List.isEmpty_iff.mp hempty, List.dropWhile_eq_nil_iff.mpr hafter]
  · exact hend _

/-- A text is what trimming leaves of it, with blanks around that. -/
theorem exists_blanks_trim (text : List Char) :
    ∃ before after, (∀ c ∈ before, isBlank c = true) ∧ (∀ c ∈ after, isBlank c = true) ∧
      text = before ++ trim text ++ after := by
  refine ⟨text.takeWhile isBlank, ((trimStart text).reverse.takeWhile isBlank).reverse,
    fun c hc => List.mem_takeWhile_imp hc, ?_, ?_⟩
  · intro c hc
    exact List.mem_takeWhile_imp (List.mem_reverse.mp hc)
  · rw [List.append_assoc, trim, trimEnd, ← List.reverse_append, List.takeWhile_append_dropWhile,
      List.reverse_reverse]
    exact (List.takeWhile_append_dropWhile).symm

theorem mem_of_mem_trim {text : List Char} {c : Char} (h : c ∈ trim text) : c ∈ text :=
  (List.dropWhile_sublist isBlank).subset ((trimEnd_isPrefixOf _).subset h)

end FeatureCompiler.Text
