import FeatureCompiler.Outcome
import Mathlib.Data.List.Forall2

/-!
Computations that end in a value or in a fault, put together. A sequence has a value exactly if all
its parts have one. Where every part names the fault that it can have, the sequence has the first
fault that any of them names. Two computations can be related step by step, each in its values and
its faults.
-/

namespace FeatureCompiler

variable {ε ε' α β : Type}

theorem bind_eq_ok_iff {first : Except ε α} {next : α → Except ε β} {b : β} :
    (first >>= next) = .ok b ↔ ∃ a, first = .ok a ∧ next a = .ok b := by
  constructor
  · exact bind_eq_ok
  · rintro ⟨a, rfl, h⟩
    exact h

theorem ok_bind (a : α) (next : α → Except ε β) : ((.ok a : Except ε α) >>= next) = next a :=
  rfl

theorem error_bind (fault : ε) (next : α → Except ε β) :
    ((.error fault : Except ε α) >>= next) = .error fault :=
  rfl

/-- A sequence of two computations ends in a fault of the first or of the second. -/
theorem bind_eq_error {first : Except ε α} {next : α → Except ε β} {fault : ε}
    (h : (first >>= next) = .error fault) :
    first = .error fault ∨ ∃ a, first = .ok a ∧ next a = .error fault := by
  cases first with
  | error found =>
      cases h
      exact Or.inl rfl
  | ok a => exact Or.inr ⟨a, rfl, h⟩

theorem exists_error {outcome : Except ε α} (h : ¬ ∃ value, outcome = .ok value) :
    ∃ fault, outcome = .error fault := by
  cases outcome with
  | ok value => exact absurd ⟨value, rfl⟩ h
  | error fault => exact ⟨fault, rfl⟩

theorem exists_of_mapError_eq_error {f : ε → ε'} {outcome : Except ε α} {fault : ε'}
    (h : outcome.mapError f = .error fault) : ∃ found, fault = f found := by
  cases outcome with
  | error found =>
      cases h
      exact ⟨found, rfl⟩
  | ok a => cases h

theorem mapError_eq_ok_iff {f : ε → ε'} {outcome : Except ε α} {a : α} :
    outcome.mapError f = .ok a ↔ outcome = .ok a := by
  cases outcome with
  | error fault =>
      constructor
      · intro h
        cases h
      · intro h
        cases h
  | ok value =>
      constructor
      · intro h
        cases h
        rfl
      · intro h
        cases h
        rfl

theorem mapM_eq_ok_iff {f : α → Except ε β} {items : List α} {values : List β} :
    items.mapM f = .ok values ↔
      List.Forall₂ (fun item value => f item = .ok value) items values := by
  induction items generalizing values with
  | nil =>
      rw [List.mapM_nil, List.forall₂_nil_left_iff]
      exact ⟨fun h => (Except.ok.inj h).symm, fun h => congrArg Except.ok h.symm⟩
  | cons item rest ih =>
      rw [List.mapM_cons, List.forall₂_cons_left_iff, bind_eq_ok_iff]
      constructor
      · rintro ⟨value, hvalue, h⟩
        obtain ⟨more, hmore, h⟩ := bind_eq_ok h
        exact ⟨value, more, hvalue, ih.mp hmore, (Except.ok.inj h).symm⟩
      · rintro ⟨value, more, hvalue, hmore, rfl⟩
        exact ⟨value, hvalue, bind_eq_ok_iff.mpr ⟨more, ih.mpr hmore, rfl⟩⟩

/-- Values that all are found again make the same list. -/
theorem mapM_eq_ok_of_forall {f g : α → Except ε β} {items : List α} {values : List β}
    (h : items.mapM f = .ok values)
    (hfg : ∀ item ∈ items, ∀ value, f item = .ok value → g item = .ok value) :
    items.mapM g = .ok values := by
  rw [mapM_eq_ok_iff] at h ⊢
  refine ((List.forall₂_and_left _ _).mpr ⟨hfg, h⟩).imp ?_
  rintro item value ⟨hagain, hvalue⟩
  exact hagain value hvalue

/-- The value, unless there is a fault. -/
def valueUnless (fault? : Option ε) (value : α) : Except ε α :=
  match fault? with
  | some fault => .error fault
  | none => .ok value

theorem valueUnless_eq_ok_iff {fault? : Option ε} {value a : α} :
    valueUnless fault? value = .ok a ↔ fault? = none ∧ a = value := by
  cases fault? with
  | some fault => simp [valueUnless]
  | none => simp [valueUnless, eq_comm]

theorem valueUnless_eq_error_iff {fault? : Option ε} {value : α} {fault : ε} :
    valueUnless fault? value = .error fault ↔ fault? = some fault := by
  cases fault? <;> simp [valueUnless]

theorem mapError_valueUnless (f : ε → ε') (fault? : Option ε) (value : α) :
    (valueUnless fault? value).mapError f = valueUnless (fault?.map f) value := by
  cases fault? <;> rfl

theorem valueUnless_bind {fault? : Option ε} {value : α} {next : α → Except ε β}
    {other? : Option ε} {b : β} (hnext : next value = valueUnless other? b) :
    (valueUnless fault? value >>= next) = valueUnless (fault?.or other?) b := by
  cases fault? with
  | some fault => rfl
  | none => exact hnext

theorem mapM_eq_valueUnless {f : α → Except ε β} {fault? : α → Option ε} {value : α → β}
    (hf : ∀ item, f item = valueUnless (fault? item) (value item)) (items : List α) :
    items.mapM f = valueUnless (items.findSome? fault?) (items.map value) := by
  induction items with
  | nil => rfl
  | cons item rest ih =>
      rw [List.mapM_cons, hf item, ih, List.findSome?_cons, List.map_cons]
      cases fault? item with
      | some fault => rfl
      | none => cases rest.findSome? fault? <;> rfl

/-- Two outcomes have values that are related, or faults that are. -/
inductive OutcomeRel (faults : ε → ε' → Prop) (values : α → β → Prop) :
    Except ε α → Except ε' β → Prop where
  | ok {a : α} {b : β} : values a b → OutcomeRel faults values (.ok a) (.ok b)
  | error {fault : ε} {other : ε'} :
      faults fault other → OutcomeRel faults values (.error fault) (.error other)

namespace OutcomeRel

variable {γ δ : Type} {faults : ε → ε' → Prop} {values : α → β → Prop} {first : Except ε α}
  {second : Except ε' β}

theorem refl {faults : ε → ε → Prop} {values : α → α → Prop} (hfaults : ∀ fault, faults fault fault)
    (hvalues : ∀ a, values a a) (outcome : Except ε α) :
    OutcomeRel faults values outcome outcome := by
  cases outcome with
  | ok a => exact .ok (hvalues a)
  | error fault => exact .error (hfaults fault)

theorem mono {goal : α → β → Prop} (h : OutcomeRel faults values first second)
    (hgoal : ∀ a b, values a b → goal a b) : OutcomeRel faults goal first second := by
  cases h with
  | ok hvalues => exact .ok (hgoal _ _ hvalues)
  | error hfaults => exact .error hfaults

theorem bind {goal : γ → δ → Prop} {next : α → Except ε γ} {other : β → Except ε' δ}
    (h : OutcomeRel faults values first second)
    (hnext : ∀ a b, values a b → OutcomeRel faults goal (next a) (other b)) :
    OutcomeRel faults goal (first >>= next) (second >>= other) := by
  cases h with
  | ok hvalues => exact hnext _ _ hvalues
  | error hfaults => exact .error hfaults

/-- What the related values are outcomes of can be kept beside their relation. -/
theorem and_ok (h : OutcomeRel faults values first second) :
    OutcomeRel faults (fun a b => first = .ok a ∧ second = .ok b ∧ values a b) first second := by
  cases h with
  | ok hvalues => exact .ok ⟨rfl, rfl, hvalues⟩
  | error hfaults => exact .error hfaults

theorem exists_ok {b : β} (h : OutcomeRel faults values first second) (hb : second = .ok b) :
    ∃ a, first = .ok a ∧ values a b := by
  cases h with
  | ok hvalues =>
      cases hb
      exact ⟨_, rfl, hvalues⟩
  | error hfaults => cases hb

theorem bind_eq {first : Except ε α} {second : Except ε β} {next : α → Except ε γ}
    {other : β → Except ε γ} (h : OutcomeRel Eq values first second)
    (hnext : ∀ a b, values a b → next a = other b) : first >>= next = second >>= other := by
  cases h with
  | ok hvalues => exact hnext _ _ hvalues
  | error hfaults => exact congrArg Except.error hfaults

end OutcomeRel

end FeatureCompiler
