import FeatureCompiler.Path.Order

/-!
The order of paths. It tells paths apart exactly if they have different components, and it compares
them component by component, names by their bytes. It is strict and total: of two paths with
different components one comes before the other.
-/

namespace FeatureCompiler.Path

theorem Component.compare_eq_iff {c d : Component} : Component.compare c d = .eq ↔ c = d := by
  fun_cases Component.compare c d with
  | case1 bytes other => rw [Text.compareBytes_eq_iff, name.injEq]
  | case2 hnames =>
      rw [Nat.compare_eq_eq]
      cases c <;> cases d <;> simp_all [rank]

theorem compareComponents_eq_iff {first second : List Component} :
    compareComponents first second = .eq ↔ first = second := by
  fun_induction compareComponents first second with
  | case1 => simp
  | case2 => simp
  | case3 => simp
  | case4 c cs d ds ih =>
      rw [Ordering.then_eq_eq, Component.compare_eq_iff, ih, List.cons.injEq]

theorem Component.compare_swap (c d : Component) :
    (Component.compare c d).swap = Component.compare d c := by
  fun_cases Component.compare c d with
  | case1 bytes others => exact Text.compareBytes_swap bytes others
  | case2 _ _ hnames =>
      rw [Nat.compare_swap, Component.compare]
      intro bytes others hd hc
      exact hnames others bytes hc hd

theorem compareComponents_swap (first second : List Component) :
    (compareComponents first second).swap = compareComponents second first := by
  fun_induction compareComponents first second with
  | case1 => rfl
  | case2 => rfl
  | case3 => rfl
  | case4 c cs d ds ih =>
      rw [compareComponents, Ordering.swap_then, Component.compare_swap, ih]

theorem same_iff {p q : Path} : p.same q = true ↔ p.components = q.components := by
  rw [same, decide_eq_true_iff]

theorem same_comm (p q : Path) : p.same q = q.same p := by
  simp only [same, eq_comm]

theorem compare_eq_iff {p q : Path} : p.compare q = .eq ↔ p.same q = true := by
  rw [compare, compareComponents_eq_iff, same, decide_eq_true_eq]

/-- The order of components: the root, a dot, two dots, and then names in the order of their
bytes. -/
inductive Component.Before : Component → Component → Prop where
  | rank {c d : Component} : c.rank < d.rank → Before c d
  | name {bytes others : Bytes} :
      List.Lex (· < ·) bytes others → Before (.name bytes) (.name others)

theorem Component.compare_eq_lt_iff {c d : Component} :
    Component.compare c d = .lt ↔ c.Before d := by
  fun_cases Component.compare c d with
  | case1 bytes others =>
      rw [Text.compareBytes_eq_lt_iff]
      constructor
      · exact .name
      · intro h
        cases h with
        | rank hrank => exact absurd hrank (Nat.lt_irrefl _)
        | name hbytes => exact hbytes
  | case2 _ _ hnames =>
      rw [Nat.compare_eq_lt]
      constructor
      · exact .rank
      · intro h
        cases h with
        | rank hrank => exact hrank
        | name hbytes => exact absurd rfl (hnames _ _ rfl)

theorem compareComponents_eq_lt_iff {first second : List Component} :
    compareComponents first second = .lt ↔ List.Lex Component.Before first second := by
  fun_induction compareComponents first second with
  | case1 => simp
  | case2 => simp
  | case3 => simp
  | case4 c cs d ds ih =>
      rw [Ordering.then_eq_lt, Component.compare_eq_lt_iff, Component.compare_eq_iff, ih,
        List.cons_lex_cons_iff]

/-- Whether a path comes before another one: component by component, and before all paths below
it. -/
def Before (p q : Path) : Prop :=
  List.Lex Component.Before p.components q.components

theorem compare_eq_lt_iff {p q : Path} : p.compare q = .lt ↔ p.Before q :=
  compareComponents_eq_lt_iff

theorem compare_eq_gt_iff {p q : Path} : p.compare q = .gt ↔ q.Before p := by
  rw [← compare_eq_lt_iff, compare, compare, ← compareComponents_swap q.components,
    Ordering.swap_eq_gt]

theorem Component.Before.trans {c d e : Component} (hfirst : c.Before d) (hsecond : d.Before e) :
    c.Before e := by
  cases hfirst with
  | rank hrank =>
      cases hsecond with
      | rank hrank' => exact .rank (Nat.lt_trans hrank hrank')
      | name => exact .rank hrank
  | name hbytes =>
      cases hsecond with
      | rank hrank => exact .rank hrank
      | name hbytes' => exact .name (List.lex_trans UInt8.lt_trans hbytes hbytes')

theorem Before.trans {p q r : Path} (hfirst : p.Before q) (hsecond : q.Before r) : p.Before r :=
  List.lex_trans Component.Before.trans hfirst hsecond

theorem Before.same_eq_false {p q : Path} (h : p.Before q) : p.same q = false := by
  rw [← Bool.not_eq_true, ← compare_eq_iff, compare_eq_lt_iff.mpr h]
  exact Ordering.noConfusion

/-- What is the same as a path is not the same as a path after it. -/
theorem Before.same_eq_false_of_same {p q r : Path} (h : p.Before q) (hp : p.same r = true) :
    q.same r = false := by
  rw [← h.same_eq_false, same, same, same_iff.mp hp, decide_eq_decide]
  exact eq_comm

theorem Before.ne {p q : Path} (h : p.Before q) : p ≠ q := by
  rintro rfl
  have hsame := h.same_eq_false
  rw [same_iff.mpr rfl] at hsame
  cases hsame

end FeatureCompiler.Path
