import FeatureCompiler.Path.Basic
import FeatureCompiler.Proofs.Text.Pieces

/-!
Paths that are put together. A path is spelled by its start and its pieces, and joining a base and a
path that starts with neither the root nor a dot puts the components of both behind each other. What
is then left below the base is the second path again.
-/

namespace FeatureCompiler.Path

theorem splitLead_bytes (bytes : Bytes) :
    (splitLead bytes).1.bytes ++ (splitLead bytes).2 = bytes := by
  fun_cases splitLead bytes with
  | case1 => rfl
  | case2 => rfl
  | case3 first rest _ hdot =>
      rw [hdot.1]
      rfl
  | case4 => rfl

/-- More behind a slash leaves the start of a path as it is. -/
theorem splitLead_append_slash {bytes : Bytes} (hbytes : bytes ≠ []) (rest : Bytes) :
    splitLead (bytes ++ slash :: rest) =
      ((splitLead bytes).1, (splitLead bytes).2 ++ slash :: rest) := by
  cases bytes with
  | nil => exact absurd rfl hbytes
  | cons first more =>
      have hhead : (more ++ slash :: rest).head?.all (· = slash) = more.head?.all (· = slash) := by
        cases more <;> simp
      rw [List.cons_append, splitLead, splitLead, hhead]
      split
      · rfl
      · split <;> rfl

theorem splitLead_of_isSolid {piece : Bytes} (hsolid : isSolid piece = true)
    (hslash : slash ∉ piece) (rest : Bytes) :
    splitLead (piece ++ rest) = (.none, piece ++ rest) := by
  cases piece with
  | nil => contradiction
  | cons first more =>
      rw [List.mem_cons, not_or] at hslash
      rw [List.cons_append, splitLead, if_neg (Ne.symm hslash.1), if_neg]
      rintro ⟨rfl, hhead⟩
      cases more with
      | nil => contradiction
      | cons next more =>
          rw [List.mem_cons, not_or] at hslash
          have hnext : next = slash := by simpa using hhead
          exact hslash.2.1 hnext.symm

theorem ofSegments_lead_segments (path : Path) : ofSegments path.lead path.segments = path := by
  rw [ofSegments, segments, Text.joined_pieces, lead, splitLead_bytes]

theorem splitLead_of_lead_none {path : Path} (hpath : path.lead = .none) :
    splitLead path.bytes = (.none, path.bytes) := by
  have hbytes := splitLead_bytes path.bytes
  rw [lead] at hpath
  rw [hpath] at hbytes
  exact Prod.ext hpath hbytes

theorem segments_of_lead_none {path : Path} (hpath : path.lead = .none) :
    path.segments = Text.pieces slash path.bytes := by
  rw [segments, splitLead_of_lead_none hpath]

/-- What stands in front of a path that is joined to these bytes. -/
def front (bytes : Bytes) : Bytes :=
  if bytes = [] ∨ bytes.getLast? = some slash then bytes else bytes ++ [slash]

theorem bytes_join {base path : Path} (hpath : path.lead = .none) :
    (base.join path).bytes = front base.bytes ++ path.bytes := by
  have hrelative : path.isAbsolute = false := by
    rw [isAbsolute, hpath]
    rfl
  rw [join, hrelative, front]
  simp only [isEmpty, List.isEmpty_iff, Bool.or_eq_true, decide_eq_true_eq]
  split
  · contradiction
  · split <;> simp

theorem front_append (first second : Bytes) :
    front (front first ++ second) = front first ++ front second := by
  cases second with
  | nil =>
      have hfirst : front first = [] ∨ (front first).getLast? = some slash := by
        rw [front]
        split
        · next h => exact h
        · simp
      rw [List.append_nil]
      exact (if_pos hfirst).trans (List.append_nil _).symm
  | cons c rest =>
      generalize front first = before
      have hlast : (before ++ c :: rest).getLast? = (c :: rest).getLast? := by
        rw [List.getLast?_append, List.getLast?_cons, Option.some_or]
      simp only [front, hlast, List.append_eq_nil_iff, reduceCtorEq, and_false, false_or]
      split
      · rfl
      · rw [List.append_assoc]

/-- The pieces of a joined path are those of its second part, behind pieces that are solid where
those of the base are. -/
theorem exists_segments_join (base : Path) {path : Path} (hpath : path.lead = .none) :
    (base.join path).lead = base.lead ∧
      ∃ before, (base.join path).segments = before ++ path.segments ∧
        before.filter isSolid = base.segments.filter isSolid := by
  rw [segments_of_lead_none hpath, lead, lead, segments, segments, bytes_join hpath, front]
  generalize base.bytes = bytes
  split
  · next h =>
      rcases h with rfl | hlast
      · rw [List.nil_append, splitLead_of_lead_none hpath]
        exact ⟨rfl, [], rfl, rfl⟩
      · obtain ⟨start, rfl⟩ := List.getLast?_eq_some_iff.mp hlast
        rw [List.append_assoc, List.singleton_append]
        by_cases hstart : start = []
        · subst hstart
          exact ⟨rfl, [], rfl, rfl⟩
        · rw [splitLead_append_slash hstart, splitLead_append_slash hstart]
          refine ⟨rfl, Text.pieces slash (splitLead start).2, Text.pieces_append _ _ _, ?_⟩
          rw [Text.pieces_append, List.filter_append]
          exact (List.append_nil _).symm
  · next h =>
      rw [not_or] at h
      rw [List.append_assoc, List.singleton_append, splitLead_append_slash h.1]
      exact ⟨rfl, _, Text.pieces_append _ _ _, rfl⟩

theorem components_join (base : Path) {path : Path} (hpath : path.lead = .none) :
    (base.join path).components = base.components ++ path.components := by
  obtain ⟨hlead, before, hsegments, hbefore⟩ := exists_segments_join base hpath
  rw [components, components, components, hlead, hsegments, List.filter_append, hbefore, hpath,
    List.map_append, List.append_assoc]
  rfl

theorem join_assoc (base : Path) {middle path : Path} (hmiddle : middle.lead = .none)
    (hpath : path.lead = .none) : (base.join middle).join path = base.join (middle.join path) := by
  have hboth : (middle.join path).lead = .none :=
    (exists_segments_join middle hpath).1.trans hmiddle
  apply Path.ext
  rw [bytes_join hpath, bytes_join hmiddle, bytes_join hboth, bytes_join hpath, front_append,
    List.append_assoc]

theorem isSolid_of_segments_eq_cons {path : Path} (hpath : path.lead = .none)
    (hne : path.isEmpty = false) {first : Bytes} {more : List Bytes}
    (hsegments : path.segments = first :: more) : isSolid first = true := by
  have hbytes := Text.joined_pieces slash path.bytes
  rw [segments_of_lead_none hpath] at hsegments
  rw [hsegments] at hbytes
  have hsplit := splitLead_of_lead_none hpath
  -- an empty first piece is the root or no path, and a dot is a start of its own
  rw [← hbytes] at hsplit
  have hnil : first ≠ [] := by
    rintro rfl
    cases more with
    | nil =>
        rw [isEmpty, ← hbytes] at hne
        contradiction
    | cons next more => cases hsplit
  have hdot : first ≠ [dot] := by
    rintro rfl
    cases more with
    | nil => cases hsplit
    | cons next more => cases hsplit
  simp [isSolid, hnil, hdot]

theorem components_ne_nil {path : Path} (hne : path.isEmpty = false) : path.components ≠ [] := by
  cases hlead : path.lead with
  | root => simp [components, hlead, Lead.components]
  | here => simp [components, hlead, Lead.components]
  | none =>
      cases hsegments : path.segments with
      | nil => exact absurd hsegments (Text.pieces_ne_nil _ _)
      | cons first more =>
          have hfirst := isSolid_of_segments_eq_cons hlead hne hsegments
          simp [components, hsegments, hfirst]

theorem trimLeft_dropSolid (before after : List Bytes) :
    trimLeft (dropSolid (before.filter isSolid).length (before ++ after)) = trimLeft after := by
  induction before with
  | nil => rw [List.filter_nil, List.length_nil, List.nil_append, dropSolid]
  | cons piece rest ih =>
      rw [List.cons_append]
      cases hpiece : isSolid piece with
      | true =>
          rw [List.filter_cons_of_pos hpiece, List.length_cons, dropSolid, if_pos hpiece, ih]
      | false =>
          rw [List.filter_cons_of_neg (by simp [hpiece])]
          cases hcount : (rest.filter isSolid).length with
          | zero =>
              rw [hcount] at ih
              rw [← ih, dropSolid, dropSolid, trimLeft,
                List.dropWhile_cons_of_pos (by simp [hpiece])]
              rfl
          | succ n =>
              rw [hcount] at ih
              rw [dropSolid, if_neg (by simp [hpiece]), ih]

/-- What is left of a joined path below its base is the second part, up to dots and slashes at its
ends. -/
theorem stripBase?_join {base path : Path} (hbase : base.isEmpty = false)
    (hpath : path.lead = .none) :
    (base.join path).stripBase? base =
      some (ofSegments .none (trimRight (trimLeft path.segments))) := by
  obtain ⟨hlead, before, hsegments, hbefore⟩ := exists_segments_join base hpath
  have hprefix : base.components.isPrefixOf (base.join path).components = true := by
    rw [List.isPrefixOf_iff_prefix, components_join base hpath]
    exact List.prefix_append _ _
  have hlength : base.components.length - base.lead.components.length =
      (before.filter isSolid).length := by
    rw [hbefore, components, List.length_append, List.length_map, Nat.add_sub_cancel_left]
  have hpositive : base.components.length ≠ 0 := by
    intro h
    exact components_ne_nil hbase (List.length_eq_zero_iff.mp h)
  rw [stripBase?, if_pos hprefix]
  split
  · next h => exact absurd h hpositive
  · simp only [hlead, hlength, hsegments, trimLeft_dropSolid]

end FeatureCompiler.Path
