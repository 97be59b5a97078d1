import FeatureCompiler.Text.Pieces

/-!
Writers whose texts show where they end. From the text of a value with anything behind it both the
value and what is behind it can be told, so such texts can be written one after the other and still
be told apart. A run of them needs a character behind it with which none of them begins.
-/

namespace FeatureCompiler.Text

variable {α : Type}

/-- The written value and where its text ends can be told from any text that starts with it. -/
def Delimits (write : α → List Char) : Prop :=
  ∀ ⦃a b : α⦄ ⦃rest other : List Char⦄, write a ++ rest = write b ++ other → a = b ∧ rest = other

/-- No written text begins with the character, and none is empty. -/
def NeverStarts (stop : Char) (write : α → List Char) : Prop :=
  ∀ a, ∃ c rest, write a = c :: rest ∧ c ≠ stop

theorem joined_map_cons (separator : List Char) (write : α → List Char) (a : α) (items : List α) :
    joined separator ((a :: items).map write) =
      write a ++ items.flatMap fun b => separator ++ write b := by
  induction items generalizing a with
  | nil => simp [joined]
  | cons b items ih =>
      simp only [List.map_cons] at ih ⊢
      rw [joined, ih, List.flatMap_cons]
      · simp
      · simp

/-- A character that occurs in neither of two texts shows where they end. -/
theorem append_cons_inj {p : Char → Bool} {stop : Char} (hstop : p stop = false)
    {first second rest other : List Char} (hfirst : first.all p = true)
    (hsecond : second.all p = true) (h : first ++ stop :: rest = second ++ stop :: other) :
    first = second ∧ rest = other := by
  induction first generalizing second with
  | nil =>
      cases second with
      | nil => exact ⟨rfl, (List.cons.inj h).2⟩
      | cons d second =>
          obtain ⟨rfl, -⟩ := List.cons.inj h
          simp [hstop] at hsecond
  | cons c first ih =>
      cases second with
      | nil =>
          obtain ⟨rfl, -⟩ := List.cons.inj h
          simp [hstop] at hfirst
      | cons d second =>
          obtain ⟨rfl, hmore⟩ := List.cons.inj h
          rw [List.all_cons, Bool.and_eq_true] at hfirst hsecond
          obtain ⟨rfl, hrest⟩ := ih hfirst.2 hsecond.2 hmore
          exact ⟨rfl, hrest⟩

namespace Delimits

/-- What can be read back, whatever follows it, shows where it ends. -/
theorem of_read {ε : Type} {write : α → List Char} (read : List Char → Except ε (α × List Char))
    (hread : ∀ a rest, read (write a ++ rest) = .ok (a, rest)) : Delimits write := by
  intro a b rest other h
  have hpair : (a, rest) = (b, other) := by
    apply Except.ok.inj (ε := ε)
    rw [← hread a rest, h, hread b other]
  exact ⟨congrArg Prod.fst hpair, congrArg Prod.snd hpair⟩

theorem toList {write : List Char → List Char} (hwrite : Delimits write) :
    Delimits fun text : String => write text.toList := by
  intro a b rest other h
  obtain ⟨htext, hrest⟩ := hwrite h
  exact ⟨String.toList_injective htext, hrest⟩

/-- A run of texts, each written by its place in the run, up to a character that begins none. -/
theorem numbered {write : Nat → α → List Char} (hwrite : ∀ number, Delimits (write number))
    {stop : Char} (hstart : ∀ number, NeverStarts stop (write number)) :
    Delimits fun items : List α => (items.mapIdx write).flatten ++ [stop] := by
  intro items others rest other h
  induction items generalizing others write with
  | nil =>
      cases others with
      | nil => exact ⟨rfl, by simpa using h⟩
      | cons b others =>
          obtain ⟨c, more, htext, hne⟩ := hstart 0 b
          simp [List.mapIdx_cons, htext, Ne.symm hne] at h
  | cons a items ih =>
      cases others with
      | nil =>
          obtain ⟨c, more, htext, hne⟩ := hstart 0 a
          simp [List.mapIdx_cons, htext, hne] at h
      | cons b others =>
          simp only [List.mapIdx_cons, List.flatten_cons, List.append_assoc] at h
          obtain ⟨rfl, hitems⟩ := hwrite 0 h
          obtain ⟨rfl, hrest⟩ := ih (fun number => hwrite (number + 1))
            (fun number => hstart (number + 1)) (by simpa using hitems)
          exact ⟨rfl, hrest⟩

theorem flatMap {write : α → List Char} (hwrite : Delimits write) {stop : Char}
    (hstart : NeverStarts stop write) :
    Delimits fun items : List α => items.flatMap write ++ [stop] := by
  have hplaces (items : List α) : (items.mapIdx fun _ a => write a) = items.map write := by
    rw [List.mapIdx_eq_zipIdx_map]
    calc items.zipIdx.map (fun place => write place.1)
        = (items.zipIdx.map Prod.fst).map write := List.map_map.symm
      _ = items.map write := by rw [List.zipIdx_map_fst]
  have h := numbered (fun _ => hwrite) (fun _ => hstart)
  simpa only [hplaces, List.flatMap_def] using h

/-- Texts with a separator between them, up to a character that begins neither them nor the
separator. -/
theorem joined {write : α → List Char} (hwrite : Delimits write) {stop : Char}
    (hstart : NeverStarts stop write) {first : Char} (hfirst : stop ≠ first) (more : List Char) :
    Delimits fun items : List α => Text.joined (first :: more) (items.map write) ++ [stop] := by
  have hmore : Delimits fun items : List α =>
      items.flatMap (fun a => (first :: more) ++ write a) ++ [stop] := by
    apply flatMap
    · intro a b rest other h
      rw [List.append_assoc, List.append_assoc] at h
      exact hwrite (List.append_cancel_left h)
    · intro a
      exact ⟨first, more ++ write a, rfl, Ne.symm hfirst⟩
  intro items others rest other h
  dsimp only at h
  cases items with
  | nil =>
      cases others with
      | nil => exact ⟨rfl, (List.cons.inj h).2⟩
      | cons b others =>
          obtain ⟨c, more, htext, hne⟩ := hstart b
          rw [joined_map_cons, htext] at h
          exact absurd (List.cons.inj h).1.symm hne
  | cons a items =>
      cases others with
      | nil =>
          obtain ⟨c, more, htext, hne⟩ := hstart a
          rw [joined_map_cons, htext] at h
          exact absurd (List.cons.inj h).1 hne
      | cons b others =>
          rw [joined_map_cons, joined_map_cons] at h
          simp only [List.append_assoc] at h
          obtain ⟨rfl, hitems⟩ := hwrite h
          obtain ⟨rfl, hrest⟩ := hmore (by simpa using hitems)
          exact ⟨rfl, hrest⟩

end Delimits

end FeatureCompiler.Text
