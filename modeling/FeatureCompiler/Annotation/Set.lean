import FeatureCompiler.Annotation.Value
import FeatureCompiler.Json.Writer

/-!
Annotation sets: keys with their values, in the order in which the keys were first inserted. A key
that is inserted again gets the new value and keeps its place.
-/

namespace FeatureCompiler

@[ext]
structure AnnotationSet where
  entries : List (String × AnnotationValue)
  /-- No key stands twice. -/
  nodup : (entries.map Prod.fst).Nodup
deriving Repr, DecidableEq

namespace AnnotationSet

def empty : AnnotationSet := ⟨[], List.nodup_nil⟩

instance : EmptyCollection AnnotationSet := ⟨empty⟩

def keys (set : AnnotationSet) : List String :=
  set.entries.map Prod.fst

def get? (set : AnnotationSet) (key : String) : Option AnnotationValue :=
  set.entries.lookup key

def contains (set : AnnotationSet) (key : String) : Bool :=
  (set.get? key).isSome

def size (set : AnnotationSet) : Nat :=
  set.entries.length

/-- Entries with a value for a key put in its place, or at the end if the key is new. -/
def insertEntry (key : String) (value : AnnotationValue) :
    List (String × AnnotationValue) → List (String × AnnotationValue)
  | [] => [(key, value)]
  | entry :: rest =>
      if entry.1 = key then (key, value) :: rest else entry :: insertEntry key value rest

theorem map_fst_insertEntry (key : String) (value : AnnotationValue)
    (entries : List (String × AnnotationValue)) :
    (insertEntry key value entries).map Prod.fst =
      if key ∈ entries.map Prod.fst then entries.map Prod.fst
      else entries.map Prod.fst ++ [key] := by
  induction entries with
  | nil => rfl
  | cons entry rest ih =>
      by_cases hkey : entry.1 = key
      · simp [insertEntry, hkey]
      · have hne : key ≠ entry.1 := fun h => hkey h.symm
        simp only [insertEntry, hkey, if_false, List.map_cons, List.mem_cons, hne, false_or, ih]
        split
        · rfl
        · rw [List.cons_append]

theorem nodup_insertEntry (key : String) (value : AnnotationValue)
    {entries : List (String × AnnotationValue)} (h : (entries.map Prod.fst).Nodup) :
    ((insertEntry key value entries).map Prod.fst).Nodup := by
  rw [map_fst_insertEntry]
  split
  · exact h
  · next hnew =>
      rw [List.nodup_append]
      refine ⟨h, by simp, ?_⟩
      intro a ha b hb
      rw [List.mem_singleton] at hb
      rintro rfl
      exact hnew (hb ▸ ha)

def insert (set : AnnotationSet) (key : String) (value : AnnotationValue) : AnnotationSet :=
  ⟨insertEntry key value set.entries, nodup_insertEntry key value set.nodup⟩

/-- The set with these entries inserted one after the other. -/
def insertAll (set : AnnotationSet) (entries : List (String × AnnotationValue)) : AnnotationSet :=
  entries.foldl (fun set entry => set.insert entry.1 entry.2) set

def ofEntries (entries : List (String × AnnotationValue)) : AnnotationSet :=
  empty.insertAll entries

/-- The set with the values of another put over its own. -/
def mergedWith (set overrides : AnnotationSet) : AnnotationSet :=
  set.insertAll overrides.entries

def without (set : AnnotationSet) (excluded : List String) : AnnotationSet :=
  ⟨set.entries.filter fun entry => !excluded.contains entry.1,
    (List.filter_sublist.map Prod.fst).nodup set.nodup⟩

end AnnotationSet

def AnnotationValue.toJson : AnnotationValue → List Char
  | .single text => Json.writeString text.toList
  | .list items => Json.writeStrings items

def AnnotationSet.toJson (set : AnnotationSet) : String :=
  String.ofList (Json.writeObject (set.entries.map fun entry => (entry.1, entry.2.toJson)))

end FeatureCompiler
