/-!
Sets of keys, held as lists in which no key stands twice.
-/

namespace FeatureCompiler

structure KeySet (α : Type) where
  elements : List α
  nodup : elements.Nodup
deriving Repr, DecidableEq

namespace KeySet

variable {α : Type}

instance : Membership α (KeySet α) := ⟨fun set key => key ∈ set.elements⟩

def empty : KeySet α := ⟨[], List.nodup_nil⟩

theorem notMem_empty (key : α) : key ∉ (empty : KeySet α) :=
  List.not_mem_nil

variable [DecidableEq α]

def contains (set : KeySet α) (key : α) : Bool :=
  set.elements.contains key

def insert (set : KeySet α) (key : α) : KeySet α :=
  if h : key ∈ set.elements then set
  else ⟨key :: set.elements, List.nodup_cons.mpr ⟨h, set.nodup⟩⟩

/-- The set with some keys inserted one after the other. -/
def insertAll (set : KeySet α) (keys : List α) : KeySet α :=
  keys.foldl insert set

theorem contains_iff_mem {set : KeySet α} {key : α} : set.contains key = true ↔ key ∈ set :=
  List.contains_iff_mem

theorem mem_insert {set : KeySet α} {key other : α} :
    other ∈ set.insert key ↔ other ∈ set ∨ other = key := by
  unfold insert
  split
  · next hkey =>
      constructor
      · exact Or.inl
      · rintro (hother | rfl)
        · exact hother
        · exact hkey
  · exact List.mem_cons.trans or_comm

theorem mem_insertAll {set : KeySet α} {keys : List α} {other : α} :
    other ∈ set.insertAll keys ↔ other ∈ set ∨ other ∈ keys := by
  induction keys generalizing set with
  | nil => simp [insertAll]
  | cons key rest ih =>
      have hrest := @ih (set.insert key)
      rw [mem_insert, or_assoc, ← List.mem_cons] at hrest
      exact hrest

end KeySet

end FeatureCompiler
