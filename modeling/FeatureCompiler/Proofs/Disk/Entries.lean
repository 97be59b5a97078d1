import FeatureCompiler.Proofs.Disk.Tree

/-!
A tree seen from outside: what stands at each of its places. A leaf that is put into a directory
changes this at one place and nowhere else, and a node that is put where it already stands changes
nothing.
-/

namespace FeatureCompiler

namespace Node

def entry : Node → Entry
  | .directory _ => .directory
  | .file contents => .file contents

/-- What stands at a place of a tree. -/
def entryAt? (node : Node) (place : Location) : Option Entry :=
  (node.get? place).map entry

theorem entryAt?_eq_directory_iff {node : Node} {place : Location} :
    node.entryAt? place = some .directory ↔
      ∃ entries, node.get? place = some (.directory entries) := by
  rw [entryAt?]
  cases node.get? place with
  | none => simp
  | some found => cases found <;> simp [entry]

theorem entryAt?_eq_file_iff {node : Node} {place : Location} {contents : Contents} :
    node.entryAt? place = some (.file contents) ↔ node.get? place = some (.file contents) := by
  rw [entryAt?]
  cases node.get? place with
  | none => simp
  | some found => cases found <;> simp [entry]

theorem get?_cons (entries : List (Name × Node)) (name : Name) (rest : Location) :
    (Node.directory entries).get? (name :: rest) = (entries.lookup name).bind (·.get? rest) := by
  rw [get?]
  cases entries.lookup name <;> rfl

theorem get?_append (node : Node) (first second : Location) :
    node.get? (first ++ second) = (node.get? first).bind (·.get? second) := by
  induction first generalizing node with
  | nil => rw [List.nil_append, get?, Option.bind_some]
  | cons name rest ih =>
      cases node with
      | file contents => rfl
      | directory entries =>
          rw [List.cons_append, get?_cons, get?_cons]
          cases entries.lookup name with
          | none => rfl
          | some child => exact ih child

theorem entryAt?_append (node : Node) (first second : Location) :
    node.entryAt? (first ++ second) = (node.get? first).bind (·.entryAt? second) := by
  rw [entryAt?, get?_append]
  cases node.get? first <;> rfl

/-- Above everything that stands in a tree, there are directories. -/
theorem entryAt?_dropLast {node : Node} {above : Location} {name : Name} {found : Entry}
    (h : node.entryAt? (above ++ [name]) = some found) : node.entryAt? above = some .directory := by
  rw [entryAt?_append] at h
  rw [entryAt?]
  cases habove : node.get? above with
  | none =>
      rw [habove] at h
      cases h
  | some parent =>
      cases parent with
      | file contents =>
          rw [habove] at h
          cases h
      | directory entries => rfl

theorem lookup_cons_eq_ite (entry : Name × Node) (rest : List (Name × Node)) (name : Name) :
    (entry :: rest).lookup name = if name = entry.1 then some entry.2 else rest.lookup name := by
  rw [List.lookup_cons]
  by_cases h : name = entry.1
  · rw [if_pos h, beq_iff_eq.mpr h]
  · rw [if_neg h, beq_eq_false_iff_ne.mpr h]

theorem lookup_putEntry (name : Name) (node : Node) (entries : List (Name × Node)) (other : Name) :
    (putEntry name node entries).lookup other =
      if other = name then some node else entries.lookup other := by
  induction entries with
  | nil => rw [putEntry, lookup_cons_eq_ite]
  | cons first rest ih =>
      rw [putEntry]
      split
      · rw [lookup_cons_eq_ite]
      · next heq =>
          have hname : name = first.1 := Name.ext (Text.compareBytes_eq_iff.mp heq)
          rw [lookup_cons_eq_ite, lookup_cons_eq_ite, hname]
          split <;> rfl
      · next hgt =>
          have hname : name ≠ first.1 := by
            rintro rfl
            rw [Text.compareBytes_eq_iff.mpr rfl] at hgt
            cases hgt
          rw [lookup_cons_eq_ite, lookup_cons_eq_ite, ih]
          by_cases h : other = name
          · rw [if_pos h, if_neg (h ▸ hname), if_pos h]
          · rw [if_neg h, if_neg h]

/-- A leaf that is put into a directory is seen at its own place. -/
theorem entryAt?_put_leaf {root : Node} {above : Location} {name : Name}
    (habove : root.entryAt? above = some .directory)
    (hfree : root.entryAt? (above ++ [name]) ≠ some .directory) (new : Entry) (place : Location) :
    (root.put (above ++ [name]) new.leaf).entryAt? place =
      if place = above ++ [name] then some new else root.entryAt? place := by
  induction above generalizing root place with
  | nil =>
      obtain ⟨entries, hroot⟩ := entryAt?_eq_directory_iff.mp habove
      cases hroot
      rw [List.nil_append] at hfree ⊢
      rw [put, put]
      cases place with
      | nil => rfl
      | cons next rest =>
          rw [entryAt?, entryAt?, get?_cons, get?_cons, lookup_putEntry]
          by_cases hnext : next = name
          · subst hnext
            rw [if_pos rfl, Option.bind_some]
            cases rest with
            | nil =>
                rw [get?, if_pos rfl]
                cases new <;> rfl
            | cons next' rest =>
                -- below a place that is no directory there was nothing before
                rw [if_neg (by simp)]
                have hleaf : new.leaf.get? (next' :: rest) = none := by cases new <;> rfl
                rw [hleaf]
                cases hlookup : entries.lookup next with
                | none => rfl
                | some child =>
                    cases child with
                    | file contents => rfl
                    | directory below =>
                        rw [entryAt?, get?_cons, hlookup] at hfree
                        exact absurd rfl hfree
          · rw [if_neg hnext, if_neg (by simp [hnext])]
  | cons first more ih =>
      cases root with
      | file contents => cases habove
      | directory entries =>
          rw [entryAt?, get?_cons] at habove
          rw [List.cons_append, entryAt?, get?_cons] at hfree
          cases hlookup : entries.lookup first with
          | none =>
              rw [hlookup] at habove
              cases habove
          | some child =>
              rw [hlookup, Option.bind_some] at habove hfree
              rw [List.cons_append, put, hlookup, Option.getD_some]
              cases place with
              | nil => rfl
              | cons next rest =>
                  rw [entryAt?, entryAt?, get?_cons, get?_cons, lookup_putEntry]
                  by_cases hnext : next = first
                  · subst hnext
                    rw [if_pos rfl, hlookup, Option.bind_some, Option.bind_some]
                    simpa [entryAt?] using ih habove hfree rest
                  · rw [if_neg hnext, if_neg (by simp [hnext])]

theorem putEntry_of_lookup {entries : List (Name × Node)} (ordered : Ordered entries)
    {name : Name} {node : Node} (h : entries.lookup name = some node) :
    putEntry name node entries = entries := by
  induction entries with
  | nil => cases h
  | cons first rest ih =>
      obtain ⟨firstName, firstNode⟩ := first
      obtain ⟨hfirst, hrest⟩ := List.pairwise_cons.mp ordered
      rw [putEntry]
      by_cases hname : name = firstName
      · subst hname
        rw [lookup_cons_eq_ite, if_pos rfl] at h
        cases h
        rw [Text.compareBytes_eq_iff.mpr rfl]
      · rw [lookup_cons_eq_ite, if_neg hname] at h
        have hlater := hfirst (name, node) (mem_of_lookup h)
        rw [← Text.compareBytes_swap, hlater]
        exact congrArg ((firstName, firstNode) :: ·) (ih hrest h)

/-- A node that is put where it already stands changes nothing. -/
theorem WellFormed.put_of_get? {node : Node} (hnode : node.WellFormed) {place : Location}
    {found : Node} (h : node.get? place = some found) : node.put place found = node := by
  induction place generalizing node with
  | nil => exact (Option.some.inj h).symm
  | cons name rest ih =>
      cases hnode with
      | file contents => cases h
      | directory ordered nodes =>
          rw [get?_cons] at h
          obtain ⟨child, hlookup, hfound⟩ := Option.bind_eq_some_iff.mp h
          rw [Node.put, hlookup, Option.getD_some, ih (nodes _ (mem_of_lookup hlookup)) hfound,
            putEntry_of_lookup ordered hlookup]

theorem WellFormed.lookup_of_mem {entries : List (Name × Node)}
    (hentries : (Node.directory entries).WellFormed) {entry : Name × Node}
    (h : entry ∈ entries) : entries.lookup entry.1 = some entry.2 := by
  cases hentries with
  | directory ordered nodes =>
      clear nodes
      induction entries with
      | nil => cases h
      | cons first rest ih =>
          obtain ⟨hfirst, hrest⟩ := List.pairwise_cons.mp ordered
          rcases List.mem_cons.mp h with rfl | h
          · rw [lookup_cons_eq_ite, if_pos rfl]
          · have hne : entry.1 ≠ first.1 := by
              intro heq
              have hlt := hfirst entry h
              rw [heq, Text.compareBytes_eq_iff.mpr rfl] at hlt
              cases hlt
            rw [lookup_cons_eq_ite, if_neg hne]
            exact ih h hrest

end Node

end FeatureCompiler
