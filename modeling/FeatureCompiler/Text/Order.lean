import FeatureCompiler.Text.Utf8

/-!
The order of bytes, one after the other. What can be continued comes before its continuations.
-/

namespace FeatureCompiler.Text

def compareBytes : Bytes → Bytes → Ordering
  | [], [] => .eq
  | [], _ :: _ => .lt
  | _ :: _, [] => .gt
  | b :: bs, c :: cs => (compare b.toNat c.toNat).then (compareBytes bs cs)

theorem compareBytes_eq_iff {first second : Bytes} :
    compareBytes first second = .eq ↔ first = second := by
  fun_induction compareBytes first second with
  | case1 => simp
  | case2 => simp
  | case3 => simp
  | case4 b bs c cs ih =>
      rw [Ordering.then_eq_eq, Nat.compare_eq_eq, ih, UInt8.toNat_inj, List.cons.injEq]

theorem compareBytes_swap (first second : Bytes) :
    (compareBytes first second).swap = compareBytes second first := by
  fun_induction compareBytes first second with
  | case1 => rfl
  | case2 => rfl
  | case3 => rfl
  | case4 b bs c cs ih => rw [compareBytes, Ordering.swap_then, Nat.compare_swap, ih]

theorem compareBytes_eq_gt_iff {first second : Bytes} :
    compareBytes first second = .gt ↔ compareBytes second first = .lt := by
  rw [← compareBytes_swap second first, Ordering.swap_eq_gt]

theorem compareBytes_lt_trans {first second third : Bytes}
    (hfirst : compareBytes first second = .lt) (hsecond : compareBytes second third = .lt) :
    compareBytes first third = .lt := by
  fun_induction compareBytes first second generalizing third with
  | case1 => cases hfirst
  | case2 c cs =>
      cases third with
      | nil => cases hsecond
      | cons d ds => rfl
  | case3 => cases hfirst
  | case4 b bs c cs ih =>
      cases third with
      | nil => cases hsecond
      | cons d ds =>
          rw [compareBytes, Ordering.then_eq_lt, Nat.compare_eq_lt] at hsecond ⊢
          rw [Ordering.then_eq_lt, Nat.compare_eq_lt] at hfirst
          rw [Nat.compare_eq_eq] at hfirst hsecond ⊢
          rcases hfirst with hlt | ⟨heq, hrest⟩
          · rcases hsecond with hlt' | ⟨heq', -⟩
            · exact Or.inl (Nat.lt_trans hlt hlt')
            · exact Or.inl (heq' ▸ hlt)
          · rcases hsecond with hlt' | ⟨heq', hrest'⟩
            · exact Or.inl (heq ▸ hlt')
            · exact Or.inr ⟨heq.trans heq', ih hrest hrest'⟩

theorem compareBytes_eq_lt_iff {first second : Bytes} :
    compareBytes first second = .lt ↔ List.Lex (· < ·) first second := by
  fun_induction compareBytes first second with
  | case1 => simp
  | case2 => simp
  | case3 => simp
  | case4 b bs c cs ih =>
      rw [Ordering.then_eq_lt, Nat.compare_eq_lt, Nat.compare_eq_eq, UInt8.toNat_inj,
        ← UInt8.lt_iff_toNat_lt, ih, List.cons_lex_cons_iff]

end FeatureCompiler.Text
