import FeatureCompiler.Path.Extension
import FeatureCompiler.Proofs.Path.Join

/-!
Another extension for a path changes its last piece and nothing before it. The one name that does
not get its extension is the one whose stem is a dot: without its old extension, it is two dots.
-/

namespace FeatureCompiler

namespace Text

theorem joined_concat_append (separator : Bytes) (init : List Bytes) (last more : Bytes) :
    joined separator (init ++ [last ++ more]) = joined separator (init ++ [last]) ++ more := by
  by_cases hinit : init = []
  · rw [hinit]
    rfl
  · rw [joined_concat _ _ hinit, joined_concat _ _ hinit, List.append_assoc, List.append_assoc,
      List.append_assoc]

end Text

namespace Path

theorem cutAtLastDot?_append (stem : Bytes) {extension : Bytes} (hdot : dot ∉ extension) :
    cutAtLastDot? (stem ++ dot :: extension) = some (stem, extension) := by
  have hnot : ∀ c ∈ extension.reverse, decide (c ≠ dot) = true := by
    intro c hc
    rw [decide_eq_true_eq]
    rintro rfl
    exact hdot (List.mem_reverse.mp hc)
  have hreverse : (stem ++ dot :: extension).reverse =
      extension.reverse ++ dot :: stem.reverse := by
    simp
  rw [cutAtLastDot?, hreverse, List.dropWhile_append_of_pos hnot, List.takeWhile_append_of_pos hnot]
  simp

theorem eq_append_of_cutAtLastDot? {name stem extension : Bytes}
    (h : cutAtLastDot? name = some (stem, extension)) :
    name = stem ++ dot :: extension ∧ dot ∉ extension := by
  rw [cutAtLastDot?] at h
  split at h
  · cases h
  · next last before hdrop =>
      cases h
      have hlast : last = dot := by
        have hhead := List.head?_dropWhile_not (fun c => decide (c ≠ dot)) name.reverse
        rw [hdrop] at hhead
        simpa using hhead
      subst hlast
      have hname : name.reverse = name.reverse.takeWhile (· ≠ dot) ++ dot :: before := by
        rw [← hdrop, List.takeWhile_append_dropWhile]
      constructor
      · simpa using congrArg List.reverse hname
      · intro hmem
        have hkept := List.all_eq_true.mp List.all_takeWhile dot (List.mem_reverse.mp hmem)
        simp at hkept

theorem splitName_append {stem extension : Bytes} (hstem : stem ≠ []) (hdot : dot ∉ extension) :
    splitName (stem ++ dot :: extension) = (stem, some extension) := by
  simp only [splitName, cutAtLastDot?_append stem hdot, if_neg hstem]

theorem exists_stem_of_splitName {name extension : Bytes}
    (h : (splitName name).2 = some extension) :
    ∃ stem, stem ≠ [] ∧ name = stem ++ dot :: extension ∧ dot ∉ extension := by
  rw [splitName] at h
  split at h
  · next stem found hcut =>
      split at h
      · cases h
      · next hstem =>
          cases h
          exact ⟨stem, hstem, eq_append_of_cutAtLastDot? hcut⟩
  · cases h

theorem fileName?_of_segments {path : Path} {init : List Bytes} {last : Bytes}
    (hsegments : path.segments = init ++ [last]) (hlast : isSolid last = true) :
    path.fileName? = if last = [dot, dot] then none else some last := by
  rw [fileName?, hsegments, List.filter_append, List.filter_cons_of_pos hlast, List.filter_nil,
    List.getLast?_concat]

theorem slash_notMem_of_segments {path : Path} {init : List Bytes} {last : Bytes}
    (hsegments : path.segments = init ++ [last]) : slash ∉ last := by
  have hmem : last ∈ path.segments := by simp [hsegments]
  exact Text.notMem_of_mem_pieces hmem

/-- The last piece of a path can be exchanged without any change to what is before it. -/
theorem segments_ofSegments_concat {path : Path} {init : List Bytes} {last new : Bytes}
    (hsegments : path.segments = init ++ [last]) (hlast : isSolid last = true)
    (hnew : isSolid new = true) (hslash : slash ∉ new) :
    (ofSegments path.lead (init ++ [new])).lead = path.lead ∧
      (ofSegments path.lead (init ++ [new])).segments = init ++ [new] := by
  have hsplit : splitLead (path.lead.bytes ++ Text.joined [slash] (init ++ [last])) =
      (path.lead, Text.joined [slash] (init ++ [last])) := by
    rw [← hsegments, segments, Text.joined_pieces, lead, splitLead_bytes]
  have hfree : slash ∉ last := slash_notMem_of_segments hsegments
  suffices hgoal : splitLead (path.lead.bytes ++ Text.joined [slash] (init ++ [new])) =
      (path.lead, Text.joined [slash] (init ++ [new])) by
    rw [lead, segments, ofSegments, hgoal]
    refine ⟨rfl, Text.pieces_joined (by simp) ?_⟩
    intro piece hpiece
    rcases List.mem_append.mp hpiece with hinit | hpiece
    · have hmem : piece ∈ path.segments := by simp [hsegments, hinit]
      exact Text.notMem_of_mem_pieces hmem
    · rw [List.mem_singleton.mp hpiece]
      exact hslash
  by_cases hinit : init = []
  · subst hinit
    rw [List.nil_append, Text.joined] at hsplit ⊢
    cases hlead : path.lead with
    | root => rfl
    | none =>
        have hname := splitLead_of_isSolid hnew hslash []
        rwa [List.append_nil] at hname
    | here =>
        -- behind a dot, a piece can only come after a slash
        rw [hlead] at hsplit
        cases last with
        | nil => contradiction
        | cons c rest =>
            have hc : c ≠ slash := by
              rintro rfl
              exact hfree List.mem_cons_self
            rw [Lead.bytes, List.singleton_append, splitLead] at hsplit
            simp [hc] at hsplit
  · rw [Text.joined_concat _ _ hinit, List.append_assoc, List.singleton_append,
      ← List.append_assoc] at hsplit ⊢
    have hstart : path.lead.bytes ++ Text.joined [slash] init ≠ [] := by
      intro hnil
      have hroot : path.lead = .root := by
        rw [hnil] at hsplit
        exact (Prod.mk.inj hsplit).1.symm
      rw [hroot] at hnil
      cases hnil
    rw [splitLead_append_slash hstart] at hsplit ⊢
    obtain ⟨hlead, hbody⟩ := Prod.mk.inj hsplit
    rw [hlead, List.append_cancel_right hbody]

theorem bytes_ofSegments_concat_append (lead : Lead) (init : List Bytes) (last more : Bytes) :
    (ofSegments lead (init ++ [last ++ more])).bytes =
      (ofSegments lead (init ++ [last])).bytes ++ more := by
  rw [ofSegments, ofSegments, Text.joined_concat_append, List.append_assoc]

theorem isSolid_dotted {stem : Bytes} (hstem : stem ≠ []) (extension : Bytes) :
    isSolid (stem ++ dot :: extension) = true := by
  match stem with
  | [] => contradiction
  | [c] => simp [isSolid]
  | c :: d :: rest => simp [isSolid]

theorem dotted_eq_up_iff {stem extension : Bytes} (hstem : stem ≠ []) :
    stem ++ dot :: extension = [dot, dot] ↔ stem = [dot] ∧ extension = [] := by
  match stem with
  | [] => contradiction
  | [c] => simp
  | c :: d :: rest => simp

/-- The pieces of a path whose file name ends in a dot, after an extension has been set. -/
theorem setExtension_of_segments {path : Path} {init : List Bytes} {stem : Bytes}
    (hsegments : path.segments = init ++ [stem ++ [dot]]) (hstem : stem ≠ [])
    (extension : Bytes) :
    path.setExtension extension =
      if stem = [dot] then path
      else ofSegments path.lead (init ++ [stem ++ dot :: extension]) := by
  have hsolid : isSolid (stem ++ [dot]) = true := isSolid_dotted hstem []
  rw [setExtension, fileName?_of_segments hsegments hsolid]
  by_cases hdot : stem = [dot]
  · rw [if_pos hdot, if_pos ((dotted_eq_up_iff hstem).mpr ⟨hdot, rfl⟩)]
  · have hup : stem ++ [dot] ≠ [dot, dot] := by
      intro h
      exact hdot ((dotted_eq_up_iff hstem).mp h).1
    have htrim : trimRight path.segments = init ++ [stem ++ [dot]] := by
      rw [trimRight, hsegments, List.reverse_append, List.reverse_singleton,
        List.singleton_append, List.dropWhile_cons_of_neg (by simp [hsolid])]
      simp
    have hsplit : splitName (stem ++ [dot]) = (stem, some []) :=
      splitName_append hstem List.not_mem_nil
    simp only [if_neg hdot, if_neg hup, htrim, List.dropLast_concat, hsplit]
    apply Path.ext
    rw [bytes_ofSegments_concat_append]

/-- A path whose file name has a stem and an extension, with another extension. -/
theorem withExtension_of_segments {path : Path} {init : List Bytes} {stem old : Bytes}
    (hsegments : path.segments = init ++ [stem ++ dot :: old]) (hstem : stem ≠ [])
    (hold : old ≠ []) (hdot : dot ∉ old) (extension : Bytes) :
    path.withExtension extension =
      ofSegments path.lead (init ++
        [if stem = [dot] then [dot, dot] else stem ++ dot :: extension]) := by
  have hsolid := isSolid_dotted hstem old
  have hup : stem ++ dot :: old ≠ [dot, dot] := by
    intro h
    exact hold ((dotted_eq_up_iff hstem).mp h).2
  have hextension : path.extension? = some old := by
    rw [extension?, fileName?_of_segments hsegments hsolid, if_neg hup, Option.bind_some,
      splitName_append hstem hdot]
  -- the spelling up to the dot is a path with the same pieces before its last one
  have hcut : path.bytes =
      (ofSegments path.lead (init ++ [stem ++ [dot]])).bytes ++ old := by
    rw [← bytes_ofSegments_concat_append, List.append_assoc, List.singleton_append, ← hsegments,
      ofSegments_lead_segments]
  have hfree : slash ∉ stem ++ [dot] := by
    have hname := slash_notMem_of_segments hsegments
    rw [List.mem_append, not_or] at hname ⊢
    exact ⟨hname.1, by decide⟩
  obtain ⟨hlead, hpieces⟩ :=
    segments_ofSegments_concat hsegments hsolid (isSolid_dotted hstem []) hfree
  have htake : path.bytes.take (path.bytes.length - old.length) =
      (ofSegments path.lead (init ++ [stem ++ [dot]])).bytes := by
    rw [hcut, List.length_append, Nat.add_sub_cancel, List.take_left]
  simp only [withExtension, hextension, htake]
  rw [setExtension_of_segments hpieces hstem, hlead]
  split
  · next h =>
      rw [h]
      rfl
  · rfl

theorem components_of_segments {path : Path} {init : List Bytes} {last : Bytes}
    (hsegments : path.segments = init ++ [last]) (hlast : isSolid last = true) :
    path.components =
      path.lead.components ++ (init.filter isSolid).map solidComponent ++
        [solidComponent last] := by
  rw [components, hsegments, List.filter_append, List.filter_cons_of_pos hlast, List.map_append,
    List.append_assoc]
  rfl

/-- Another extension changes the last component alone. -/
theorem components_withExtension {path : Path} {init : List Bytes} {stem old : Bytes}
    (hsegments : path.segments = init ++ [stem ++ dot :: old]) (hstem : stem ≠ [])
    (hold : old ≠ []) (hdot : dot ∉ old) {extension : Bytes}
    (hslash : slash ∉ extension) :
    (path.withExtension extension).components =
      path.components.dropLast ++
        [if stem = [dot] then .up else .name (stem ++ dot :: extension)] := by
  have hsolid := isSolid_dotted hstem old
  have hfree : slash ∉ stem := by
    have hname := slash_notMem_of_segments hsegments
    rw [List.mem_append, not_or] at hname
    exact hname.1
  rw [withExtension_of_segments hsegments hstem hold hdot, components_of_segments hsegments hsolid,
    List.dropLast_concat]
  by_cases hstem_dot : stem = [dot]
  · rw [if_pos hstem_dot, if_pos hstem_dot]
    obtain ⟨hlead, hpieces⟩ := segments_ofSegments_concat hsegments hsolid
      (show isSolid [dot, dot] = true from rfl) (by decide)
    rw [components_of_segments hpieces rfl, hlead]
    rfl
  · rw [if_neg hstem_dot, if_neg hstem_dot]
    have hnew := isSolid_dotted hstem extension
    obtain ⟨hlead, hpieces⟩ := segments_ofSegments_concat hsegments hsolid hnew (by simp_all)
    have hup : stem ++ dot :: extension ≠ [dot, dot] := by
      intro h
      exact hstem_dot ((dotted_eq_up_iff hstem).mp h).1
    rw [components_of_segments hpieces hnew, hlead, solidComponent, if_neg hup]

end Path

end FeatureCompiler
