import FeatureCompiler.Plan.MergedScenario
import FeatureCompiler.Proofs.Annotation.Insertion

/-!
Annotation sets as the operations make them. Merging and removing keys say what they would say about
a longer list of insertions, so a set that is made by any of the operations holds what a list of
insertions does. On these sets merging is an idempotent monoid that keeps the order of keys, and to
remove keys from a merged set is to remove them from both its parts.
-/

namespace FeatureCompiler.AnnotationSet

theorem keys_insertAll (set : AnnotationSet) {entries : List (String × AnnotationValue)}
    (hentries : (entries.map Prod.fst).Nodup) :
    (set.insertAll entries).keys =
      set.keys ++ (entries.map Prod.fst).filter fun key => !set.keys.contains key := by
  induction entries using List.reverseRecOn with
  | nil => exact (List.append_nil _).symm
  | append_singleton entries entry ih =>
      rw [List.map_append, List.map_singleton, List.nodup_append] at hentries
      obtain ⟨hnodup, -, hdisjoint⟩ := hentries
      have hnew : entry.1 ∉ entries.map Prod.fst :=
        fun hmem => hdisjoint _ hmem _ (List.mem_singleton_self _) rfl
      rw [insertAll_concat, keys_insert, ih hnodup, List.map_append, List.map_singleton,
        List.filter_append]
      by_cases hkey : entry.1 ∈ set.keys
      · simp [hkey]
      · simp [hkey, hnew]

/-- The keys of a merged set: those of the set below, then the new ones. -/
theorem keys_mergedWith (set overrides : AnnotationSet) :
    (set.mergedWith overrides).keys =
      set.keys ++ overrides.keys.filter fun key => !set.keys.contains key :=
  keys_insertAll set overrides.nodup

/-- One more insertion into the set on top is one more into the merged set. -/
theorem mergedWith_insert (set overrides : AnnotationSet) (key : String) (value : AnnotationValue) :
    set.mergedWith (overrides.insert key value) = (set.mergedWith overrides).insert key value := by
  apply eq_of_keys_eq
  · rw [keys_mergedWith, keys_insert, keys_insert, keys_mergedWith]
    -- The key keeps its place below, or else its place on top; only a new key comes last.
    by_cases hbelow : key ∈ set.keys <;> by_cases habove : key ∈ overrides.keys <;>
      simp [hbelow, habove, List.filter_append]
  · intro other
    rw [get?_mergedWith, get?_insert, get?_insert, get?_mergedWith]
    split <;> rfl

theorem mergedWith_insertAll (set overrides : AnnotationSet)
    (entries : List (String × AnnotationValue)) :
    set.mergedWith (overrides.insertAll entries) =
      (set.mergedWith overrides).insertAll entries := by
  induction entries generalizing overrides with
  | nil => rfl
  | cons entry rest ih =>
      have hrest := ih (overrides.insert entry.1 entry.2)
      rw [mergedWith_insert] at hrest
      exact hrest

theorem mergedWith_assoc (set overrides last : AnnotationSet) :
    (set.mergedWith overrides).mergedWith last = set.mergedWith (overrides.mergedWith last) :=
  (mergedWith_insertAll set overrides last.entries).symm

/-- Insertions one after the other are two sets that are merged. -/
theorem ofEntries_append (first second : List (String × AnnotationValue)) :
    ofEntries (first ++ second) = (ofEntries first).mergedWith (ofEntries second) := by
  calc ofEntries (first ++ second)
      = ((ofEntries first).mergedWith empty).insertAll second := insertAll_append empty first second
    _ = (ofEntries first).mergedWith (ofEntries second) :=
        (mergedWith_insertAll (ofEntries first) empty second).symm

theorem empty_mergedWith (set : AnnotationSet) : empty.mergedWith set = set := by
  refine (eq_of_keys_eq ?_ ?_).symm
  · rw [keys_mergedWith]
    exact (List.filter_eq_self.mpr fun _ _ => rfl).symm
  · intro key
    rw [get?_mergedWith]
    exact Option.or_none.symm

theorem mergedWith_self (set : AnnotationSet) : set.mergedWith set = set := by
  refine (eq_of_keys_eq ?_ ?_).symm
  · have hnone : (set.keys.filter fun key => !set.keys.contains key) = [] := by
      rw [List.filter_eq_nil_iff]
      intro key hkey
      simpa using hkey
    rw [keys_mergedWith, hnone, List.append_nil]
  · intro key
    rw [get?_mergedWith, Option.or_self]

theorem filter_insertEntry (keep : String → Bool) (key : String) (value : AnnotationValue)
    (entries : List (String × AnnotationValue)) :
    (insertEntry key value entries).filter (fun entry => keep entry.1) =
      if keep key then insertEntry key value (entries.filter fun entry => keep entry.1)
      else entries.filter fun entry => keep entry.1 := by
  induction entries with
  | nil => cases hkey : keep key <;> simp [insertEntry, hkey]
  | cons entry rest ih =>
      by_cases hentry : entry.1 = key
      · -- The entry is replaced in its place, so it is kept or dropped as before.
        cases hkey : keep key <;> simp [insertEntry, hentry, hkey]
      · rw [insertEntry, if_neg hentry, List.filter_cons, List.filter_cons, ih]
        cases hother : keep entry.1 with
        | false => simp
        | true => cases hkey : keep key <;> simp [insertEntry, hentry]

/-- To remove keys after an insertion is to insert after their removal, unless the inserted key is
one of them. -/
theorem without_insert (set : AnnotationSet) (key : String) (value : AnnotationValue)
    (excluded : List String) :
    (set.insert key value).without excluded =
      if excluded.contains key then set.without excluded
      else (set.without excluded).insert key value := by
  have hentries := filter_insertEntry (fun key => !excluded.contains key) key value set.entries
  cases hkey : excluded.contains key with
  | true =>
      rw [hkey] at hentries
      exact AnnotationSet.ext hentries
  | false =>
      rw [hkey] at hentries
      exact AnnotationSet.ext hentries

theorem without_insertAll (set : AnnotationSet) (entries : List (String × AnnotationValue))
    (excluded : List String) :
    (set.insertAll entries).without excluded =
      (set.without excluded).insertAll
        (entries.filter fun entry => !excluded.contains entry.1) := by
  induction entries generalizing set with
  | nil => rfl
  | cons entry rest ih =>
      have hstep : (set.insertAll (entry :: rest)).without excluded =
          ((set.insert entry.1 entry.2).without excluded).insertAll
            (rest.filter fun entry => !excluded.contains entry.1) :=
        ih (set.insert entry.1 entry.2)
      rw [hstep, without_insert]
      by_cases hkey : excluded.contains entry.1 = true
      · simp only [hkey, if_true, List.filter_cons, Bool.not_true, Bool.false_eq_true, if_false]
      · simp only [hkey, List.filter_cons, Bool.not_false, if_true]
        rfl

theorem without_mergedWith (set overrides : AnnotationSet) (excluded : List String) :
    (set.mergedWith overrides).without excluded =
      (set.without excluded).mergedWith (overrides.without excluded) :=
  without_insertAll set overrides.entries excluded

/-- A way to make a set from the empty one. -/
inductive Construction where
  | empty
  | insert (base : Construction) (key : String) (value : AnnotationValue)
  | collect (entries : List (String × AnnotationValue))
  | mergedWith (base overrides : Construction)
  | without (base : Construction) (excluded : List String)
deriving Repr, DecidableEq

namespace Construction

/-- The set that is made. -/
def set : Construction → AnnotationSet
  | .empty => AnnotationSet.empty
  | .insert base key value => base.set.insert key value
  | .collect entries => ofEntries entries
  | .mergedWith base overrides => base.set.mergedWith overrides.set
  | .without base excluded => base.set.without excluded

/-- The insertions that count, in their order. Those of a key that was removed later do not. -/
def insertions : Construction → List (String × AnnotationValue)
  | .empty => []
  | .insert base key value => base.insertions ++ [(key, value)]
  | .collect entries => entries
  | .mergedWith base overrides => base.insertions ++ overrides.insertions
  | .without base excluded => base.insertions.filter fun entry => !excluded.contains entry.1

theorem set_eq_ofEntries (construction : Construction) :
    construction.set = ofEntries construction.insertions := by
  induction construction with
  | empty => rfl
  | insert base key value ih => rw [set, insertions, ofEntries_append_singleton, ih]
  | collect entries => rfl
  | mergedWith base overrides ihbase ihoverrides =>
      rw [set, insertions, ihbase, ihoverrides, ofEntries_append]
  | without base excluded ih =>
      rw [set, insertions, ih]
      exact without_insertAll AnnotationSet.empty base.insertions excluded

/-- The laws of annotation sets. A set that is made by the operations has every key once, in the
order of first insertion, with the value inserted last. Merging such sets is associative and
idempotent, and the empty set is neutral on both sides. A merged set gives the values on top, and
those below for other keys; its keys are those below, and then the new ones, each in their order.
Keys can be removed before or after merging, so what is handed to a step can be merged likewise. -/
theorem merging_laws (a b c : Construction) :
    a.set.keys.Nodup ∧ a.set.Collects a.insertions ∧
    (a.set.mergedWith b.set).mergedWith c.set = a.set.mergedWith (b.set.mergedWith c.set) ∧
    a.set.mergedWith a.set = a.set ∧
    AnnotationSet.empty.mergedWith a.set = a.set ∧ a.set.mergedWith AnnotationSet.empty = a.set ∧
    (∀ key, (a.set.mergedWith b.set).get? key =
      if b.set.contains key then b.set.get? key else a.set.get? key) ∧
    (a.set.mergedWith b.set).keys =
      a.set.keys ++ b.set.keys.filter (fun key => !a.set.keys.contains key) ∧
    (∀ excluded, (a.set.mergedWith b.set).without excluded =
      (a.set.without excluded).mergedWith (b.set.without excluded)) ∧
    (a.set.mergedWith b.set).data = a.set.data.mergedWith b.set.data := by
  refine ⟨a.set.nodup, collects_iff.mpr a.set_eq_ofEntries, ?_, ?_, ?_, rfl, ?_, ?_, ?_, ?_⟩
  · exact mergedWith_assoc a.set b.set c.set
  · exact mergedWith_self a.set
  · exact empty_mergedWith a.set
  · intro key
    rw [get?_mergedWith, contains]
    cases b.set.get? key <;> rfl
  · exact keys_mergedWith a.set b.set
  · exact without_mergedWith a.set b.set
  · exact without_mergedWith a.set b.set reservedKeys

end Construction

end FeatureCompiler.AnnotationSet
