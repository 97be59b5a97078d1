import FeatureCompiler.Text.Pieces

/-!
Texts that are cut at a separator. Cutting and joining undo each other as long as no piece holds the
separator.
-/

namespace FeatureCompiler.Text

variable {α : Type} [DecidableEq α]

theorem pieces_ne_nil (separator : α) (text : List α) : pieces separator text ≠ [] := by
  cases text with
  | nil => exact List.cons_ne_nil _ _
  | cons c rest =>
      unfold pieces
      split
      · exact List.cons_ne_nil _ _
      · split <;> exact List.cons_ne_nil _ _

theorem pieces_append (separator : α) (first second : List α) :
    pieces separator (first ++ separator :: second) =
      pieces separator first ++ pieces separator second := by
  induction first with
  | nil => simp [pieces]
  | cons c rest ih =>
      rw [List.cons_append, pieces, pieces, ih]
      split
      · rfl
      · cases hrest : pieces separator rest with
        | nil => exact absurd hrest (pieces_ne_nil separator rest)
        | cons piece more => rfl

theorem notMem_of_mem_pieces {separator : α} {text piece : List α}
    (hpiece : piece ∈ pieces separator text) : separator ∉ piece := by
  induction text generalizing piece with
  | nil =>
      obtain rfl := List.mem_singleton.mp hpiece
      exact List.not_mem_nil
  | cons c rest ih =>
      rw [pieces] at hpiece
      split at hpiece
      · rcases List.mem_cons.mp hpiece with rfl | hrest
        · exact List.not_mem_nil
        · exact ih hrest
      · next hc =>
          split at hpiece
          · next hnil => exact absurd hnil (pieces_ne_nil separator rest)
          · next first more hmore =>
              rw [hmore] at ih
              rcases List.mem_cons.mp hpiece with rfl | hrest
              · have hfirst : separator ∉ first := ih List.mem_cons_self
                simp [hfirst, Ne.symm hc]
              · exact ih (List.mem_cons_of_mem _ hrest)

theorem mem_of_mem_pieces {separator : α} {text piece : List α}
    (hpiece : piece ∈ pieces separator text) {c : α} (hc : c ∈ piece) : c ∈ text := by
  induction text generalizing piece with
  | nil =>
      obtain rfl := List.mem_singleton.mp hpiece
      exact hc
  | cons d rest ih =>
      rw [pieces] at hpiece
      split at hpiece
      · rcases List.mem_cons.mp hpiece with rfl | hrest
        · cases hc
        · exact List.mem_cons_of_mem _ (ih hrest hc)
      · split at hpiece
        · next hnil => exact absurd hnil (pieces_ne_nil separator rest)
        · next first more hmore =>
            rw [hmore] at ih
            rcases List.mem_cons.mp hpiece with rfl | hrest
            · rcases List.mem_cons.mp hc with rfl | hc
              · exact List.mem_cons_self
              · exact List.mem_cons_of_mem _ (ih List.mem_cons_self hc)
            · exact List.mem_cons_of_mem _ (ih (List.mem_cons_of_mem _ hrest) hc)

theorem pieces_of_notMem {separator : α} {text : List α} (h : separator ∉ text) :
    pieces separator text = [text] := by
  induction text with
  | nil => rfl
  | cons c rest ih =>
      rw [List.mem_cons, not_or] at h
      rw [pieces, if_neg (Ne.symm h.1), ih h.2]

omit [DecidableEq α] in
theorem joined_cons (separator piece : List α) {pieces : List (List α)} (hpieces : pieces ≠ []) :
    joined separator (piece :: pieces) = piece ++ separator ++ joined separator pieces := by
  cases pieces with
  | nil => exact absurd rfl hpieces
  | cons next more => rfl

omit [DecidableEq α] in
theorem joined_concat (separator last : List α) {pieces : List (List α)} (hpieces : pieces ≠ []) :
    joined separator (pieces ++ [last]) = joined separator pieces ++ separator ++ last := by
  induction pieces with
  | nil => exact absurd rfl hpieces
  | cons piece more ih =>
      rw [List.cons_append, joined_cons separator piece (by simp)]
      cases more with
      | nil => rfl
      | cons next more =>
          rw [ih (List.cons_ne_nil _ _), joined_cons separator piece (List.cons_ne_nil _ _)]
          simp only [List.append_assoc]

omit [DecidableEq α] in
theorem mem_joined {separator : List α} {pieces : List (List α)} {c : α}
    (hc : c ∈ joined separator pieces) : c ∈ separator ∨ ∃ piece ∈ pieces, c ∈ piece := by
  induction pieces with
  | nil => cases hc
  | cons piece more ih =>
      by_cases hmore : more = []
      · subst hmore
        exact .inr ⟨piece, List.mem_cons_self, hc⟩
      · rw [joined_cons _ _ hmore, List.mem_append, List.mem_append] at hc
        rcases hc with (hc | hc) | hc
        · exact .inr ⟨piece, List.mem_cons_self, hc⟩
        · exact .inl hc
        · obtain hseparator | ⟨other, hother, hc⟩ := ih hc
          · exact .inl hseparator
          · exact .inr ⟨other, List.mem_cons_of_mem _ hother, hc⟩

theorem joined_pieces (separator : α) (text : List α) :
    joined [separator] (pieces separator text) = text := by
  induction text with
  | nil => rfl
  | cons c rest ih =>
      rw [pieces]
      split
      · next hc =>
          rw [joined_cons _ _ (pieces_ne_nil separator rest), ih, hc]
          rfl
      · split
        · next hnil => exact absurd hnil (pieces_ne_nil separator rest)
        · next piece more hmore =>
            rw [hmore] at ih
            cases more with
            | nil => exact congrArg (c :: ·) ih
            | cons next more => exact congrArg (c :: ·) ih

theorem pieces_joined {separator : α} {parts : List (List α)} (hparts : parts ≠ [])
    (hfree : ∀ part ∈ parts, separator ∉ part) :
    pieces separator (joined [separator] parts) = parts := by
  induction parts with
  | nil => exact absurd rfl hparts
  | cons part more ih =>
      rw [List.forall_mem_cons] at hfree
      cases more with
      | nil => exact pieces_of_notMem hfree.1
      | cons next more =>
          have hmore : next :: more ≠ [] := List.cons_ne_nil _ _
          rw [joined_cons _ _ hmore, List.append_assoc, List.singleton_append, pieces_append,
            pieces_of_notMem hfree.1, ih hmore hfree.2]
          rfl

/-- Members other than the separator, put in front of a text, belong to its first piece. -/
theorem pieces_append_left {separator : α} {text before first : List α}
    {more : List (List α)} (hbefore : separator ∉ before)
    (hpieces : pieces separator text = first :: more) :
    pieces separator (before ++ text) = (before ++ first) :: more := by
  have hfree : ∀ piece ∈ first :: more, separator ∉ piece :=
    hpieces ▸ fun _ hpiece => notMem_of_mem_pieces hpiece
  have htext : before ++ text = joined [separator] ((before ++ first) :: more) := by
    rw [← joined_pieces separator text, hpieces]
    cases more with
    | nil => rfl
    | cons next more => simp [joined]
  rw [htext]
  apply pieces_joined (List.cons_ne_nil _ _)
  rw [List.forall_mem_cons] at hfree ⊢
  exact ⟨by simp [hbefore, hfree.1], hfree.2⟩

/-- Members other than the separator, put behind a text, belong to its last piece. -/
theorem pieces_append_right {separator : α} {text after last : List α}
    {init : List (List α)} (hafter : separator ∉ after)
    (hpieces : pieces separator text = init ++ [last]) :
    pieces separator (text ++ after) = init ++ [last ++ after] := by
  have hfree : ∀ piece ∈ init ++ [last], separator ∉ piece :=
    hpieces ▸ fun _ hpiece => notMem_of_mem_pieces hpiece
  have htext : text ++ after = joined [separator] (init ++ [last ++ after]) := by
    rw [← joined_pieces separator text, hpieces]
    by_cases hinit : init = []
    · subst hinit
      rfl
    · rw [joined_concat _ _ hinit, joined_concat _ _ hinit, List.append_assoc]
  rw [htext]
  apply pieces_joined (by simp)
  rw [List.forall_mem_append, List.forall_mem_singleton] at hfree ⊢
  exact ⟨hfree.1, by simp [hafter, hfree.2]⟩

end FeatureCompiler.Text
