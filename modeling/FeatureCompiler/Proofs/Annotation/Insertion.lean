import FeatureCompiler.Annotation.Set
import Mathlib.Data.List.Induction
import Mathlib.Data.List.Nodup

/-!
What a run of insertions leaves in an annotation set, said without the insertions: every key once,
at the place where it first stood, with the value that it was given last. The two facts determine
the set, so a reader of annotations can be held to them instead of to the order of its insertions.
-/

namespace FeatureCompiler.AnnotationSet

/-- The set says what the entries say in the order in which they stand: the first place of every
key counts, and the last of its values. -/
structure Collects (set : AnnotationSet) (entries : List (String × AnnotationValue)) : Prop where
  keys_eq : set.keys = (entries.map Prod.fst).eraseDups
  get?_eq : ∀ key, set.get? key = entries.reverse.lookup key

private theorem lookup_cons_eq_ite (entry : String × AnnotationValue)
    (rest : List (String × AnnotationValue)) (key : String) :
    (entry :: rest).lookup key = if key = entry.1 then some entry.2 else rest.lookup key := by
  obtain ⟨name, value⟩ := entry
  rw [List.lookup_cons]
  by_cases hkey : key = name
  · simp [hkey]
  · have hbeq : (key == name) = false := by simpa using hkey
    simp [hkey, hbeq]

theorem lookup_insertEntry (key other : String) (value : AnnotationValue)
    (entries : List (String × AnnotationValue)) :
    (insertEntry key value entries).lookup other =
      if other = key then some value else entries.lookup other := by
  induction entries with
  | nil => rw [insertEntry, lookup_cons_eq_ite]
  | cons entry rest ih =>
      by_cases hkey : entry.1 = key
      · rw [insertEntry, if_pos hkey, lookup_cons_eq_ite, lookup_cons_eq_ite, hkey]
        split <;> rfl
      · rw [insertEntry, if_neg hkey, lookup_cons_eq_ite, lookup_cons_eq_ite, ih]
        by_cases hentry : other = entry.1
        · have hother : other ≠ key := fun h => hkey (hentry.symm.trans h)
          rw [if_pos hentry, if_pos hentry, if_neg hother]
        · rw [if_neg hentry, if_neg hentry]

theorem keys_insert (set : AnnotationSet) (key : String) (value : AnnotationValue) :
    (set.insert key value).keys = if key ∈ set.keys then set.keys else set.keys ++ [key] :=
  map_fst_insertEntry key value set.entries

theorem get?_insert (set : AnnotationSet) (key other : String) (value : AnnotationValue) :
    (set.insert key value).get? other = if other = key then some value else set.get? other :=
  lookup_insertEntry key other value set.entries

theorem insertAll_append (set : AnnotationSet) (first second : List (String × AnnotationValue)) :
    set.insertAll (first ++ second) = (set.insertAll first).insertAll second :=
  List.foldl_append

theorem insertAll_concat (set : AnnotationSet) (entries : List (String × AnnotationValue))
    (entry : String × AnnotationValue) :
    set.insertAll (entries ++ [entry]) = (set.insertAll entries).insert entry.1 entry.2 :=
  insertAll_append set entries [entry]

theorem ofEntries_append_singleton (entries : List (String × AnnotationValue))
    (entry : String × AnnotationValue) :
    ofEntries (entries ++ [entry]) = (ofEntries entries).insert entry.1 entry.2 :=
  insertAll_concat empty entries entry

private theorem eraseDups_append_singleton (keys : List String) (key : String) :
    (keys ++ [key]).eraseDups = if key ∈ keys then keys.eraseDups else keys.eraseDups ++ [key] := by
  rw [List.eraseDups_append]
  by_cases hkey : key ∈ keys
  · simp [List.removeAll, hkey]
  · simp [List.removeAll, hkey, List.eraseDups_cons]

/-- Of the values that a key is given one after the other, the last one stays. -/
theorem get?_insertAll (set : AnnotationSet) (entries : List (String × AnnotationValue))
    (key : String) :
    (set.insertAll entries).get? key = (entries.reverse.lookup key).or (set.get? key) := by
  induction entries using List.reverseRecOn with
  | nil => rfl
  | append_singleton entries entry ih =>
      rw [insertAll_concat, get?_insert, List.reverse_append, List.reverse_singleton,
        List.singleton_append, lookup_cons_eq_ite, ih]
      split <;> rfl

theorem ofEntries_collects (entries : List (String × AnnotationValue)) :
    (ofEntries entries).Collects entries := by
  constructor
  · induction entries using List.reverseRecOn with
    | nil => rfl
    | append_singleton entries entry ih =>
        rw [ofEntries_append_singleton, keys_insert, List.map_append, List.map_singleton,
          eraseDups_append_singleton, ih]
        simp only [List.mem_eraseDups]
  · intro key
    have hempty : empty.get? key = none := rfl
    rw [ofEntries, get?_insertAll, hempty, Option.or_none]

private theorem lookup_eq_none_of_notMem {entries : List (String × AnnotationValue)} {key : String}
    (hkey : key ∉ entries.map Prod.fst) : entries.lookup key = none := by
  rw [List.lookup_eq_none_iff]
  intro entry hentry
  rw [bne_iff_ne]
  rintro rfl
  exact hkey (List.mem_map_of_mem hentry)

private theorem lookup_reverse_of_nodup {entries : List (String × AnnotationValue)}
    (hkeys : (entries.map Prod.fst).Nodup) (key : String) :
    entries.reverse.lookup key = entries.lookup key := by
  induction entries with
  | nil => rfl
  | cons entry rest ih =>
      rw [List.map_cons, List.nodup_cons] at hkeys
      rw [List.reverse_cons, List.lookup_append, ih hkeys.2, lookup_cons_eq_ite, lookup_cons_eq_ite]
      by_cases hkey : key = entry.1
      · rw [if_pos hkey, if_pos hkey, hkey, lookup_eq_none_of_notMem hkeys.1, Option.none_or]
      · rw [if_neg hkey, if_neg hkey, List.lookup_nil, Option.or_none]

/-- A set put over another gives its own values, and for its other keys those below. -/
theorem get?_mergedWith (set overrides : AnnotationSet) (key : String) :
    (set.mergedWith overrides).get? key = (overrides.get? key).or (set.get? key) := by
  rw [mergedWith, get?_insertAll, lookup_reverse_of_nodup overrides.nodup]
  rfl

/-- A set is determined by the order of its keys and the value of each. -/
theorem eq_of_keys_eq {first second : AnnotationSet} (hkeys : first.keys = second.keys)
    (hget : ∀ key, first.get? key = second.get? key) : first = second := by
  obtain ⟨entries, hnodup⟩ := first
  obtain ⟨others, hothers⟩ := second
  simp only [keys, get?] at hkeys hget
  congr 1
  clear hothers
  induction entries generalizing others with
  | nil => exact (List.map_eq_nil_iff.mp hkeys.symm).symm
  | cons entry rest ih =>
      cases others with
      | nil => cases hkeys
      | cons other more =>
          simp only [List.map_cons, List.cons.injEq, List.nodup_cons] at hkeys hnodup
          obtain ⟨hkey, hrest⟩ := hkeys
          have hvalue := hget entry.1
          rw [lookup_cons_eq_ite, lookup_cons_eq_ite, if_pos rfl, if_pos hkey] at hvalue
          have hentry : entry = other := Prod.ext hkey (Option.some.inj hvalue)
          subst hentry
          have hmore : rest = more := by
            apply ih hnodup.2 more hrest
            intro key
            by_cases hfirst : key = entry.1
            · have hleft : key ∉ rest.map Prod.fst := hfirst ▸ hnodup.1
              rw [lookup_eq_none_of_notMem hleft, lookup_eq_none_of_notMem (hrest ▸ hleft)]
            · have hkeyed := hget key
              rwa [lookup_cons_eq_ite, lookup_cons_eq_ite, if_neg hfirst, if_neg hfirst] at hkeyed
          rw [hmore]

theorem collects_iff {set : AnnotationSet} {entries : List (String × AnnotationValue)} :
    set.Collects entries ↔ set = ofEntries entries := by
  have hmade := ofEntries_collects entries
  constructor
  · intro h
    refine (eq_of_keys_eq ?_ ?_).symm
    · rw [hmade.keys_eq, h.keys_eq]
    · intro key
      rw [hmade.get?_eq, h.get?_eq]
  · rintro rfl
    exact hmade

end FeatureCompiler.AnnotationSet
