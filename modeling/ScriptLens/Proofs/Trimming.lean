import ScriptLens.Proofs.Text

/-!
Trimming takes away the white space at both ends of a text and nothing else, so white space that is
added there makes no difference.
-/

namespace ScriptLens.Text

def IsTrimmed (t : Text) : Prop :=
  Stops isBlank t ∧ Stops isBlank t.reverse

instance (t : Text) : Decidable t.IsTrimmed :=
  inferInstanceAs (Decidable (_ = false ∧ _ = false))

section Blank

variable {s t : Text}

theorem trimStart_of_blank (h : t.all isBlank = true) : trimStart t = [] := by
  have hdropped : (t ++ []).dropWhile isBlank = [] := dropWhile_of_stops h stops_nil
  rwa [List.append_nil] at hdropped

theorem trimStart_append (h : s.all isBlank = true) (t : Text) :
    trimStart (s ++ t) = trimStart t :=
  List.dropWhile_append_of_pos (by simpa using h)

theorem trimEnd_append (s : Text) (h : t.all isBlank = true) : trimEnd (s ++ t) = trimEnd s := by
  unfold trimEnd trimEndWhile
  rw [List.reverse_append, List.dropWhile_append_of_pos (by simpa using h)]

theorem trim_append_left (h : s.all isBlank = true) (t : Text) : trim (s ++ t) = trim t := by
  rw [trim, trimStart_append h, trim]

theorem trim_append_right (s : Text) (h : t.all isBlank = true) : trim (s ++ t) = trim s := by
  unfold trim trimStart
  rw [List.dropWhile_append]
  split
  next hs =>
    have hnil : s.dropWhile isBlank = [] := List.isEmpty_iff.1 hs
    exact congrArg trimEnd ((trimStart_of_blank h).trans hnil.symm)
  next => exact trimEnd_append _ h

theorem exists_trim (t : Text) :
    ∃ before after, t = before ++ (trim t ++ after) ∧ before.all isBlank = true ∧
      after.all isBlank = true := by
  refine ⟨t.takeWhile isBlank, ((trimStart t).reverse.takeWhile isBlank).reverse, ?_, ?_, ?_⟩
  · have hend : trim t ++ ((trimStart t).reverse.takeWhile isBlank).reverse = trimStart t := by
      rw [trim, trimEnd, trimEndWhile, ← List.reverse_append, List.takeWhile_append_dropWhile,
        List.reverse_reverse]
    rw [hend, trimStart, List.takeWhile_append_dropWhile]
  · exact List.all_takeWhile
  · rw [List.all_reverse]
    exact List.all_takeWhile

theorem trim_eq_nil_iff : trim t = [] ↔ t.all isBlank = true := by
  constructor
  · intro h
    obtain ⟨before, after, ht, hbefore, hafter⟩ := exists_trim t
    rw [ht, h, List.nil_append, List.all_append, hbefore, hafter]
    rfl
  · intro h
    rw [trim, trimStart_of_blank h]
    rfl

theorem trim_of_isTrimmed (h : t.IsTrimmed) : trim t = t := by
  have hkeep : ∀ {u : Text}, Stops isBlank u → u.dropWhile isBlank = u := by
    intro u hu
    exact dropWhile_of_stops (t := []) rfl hu
  unfold trim trimEnd trimEndWhile trimStart
  rw [hkeep h.1, hkeep h.2, List.reverse_reverse]

theorem isTrimmed_of_ends {c d : Char} {s t : Text} (hc : isBlank c = false)
    (hd : isBlank d = false) (h : c :: s = t ++ [d]) : IsTrimmed (c :: s) := by
  refine ⟨stops_cons.2 hc, ?_⟩
  rw [h, List.reverse_concat]
  exact stops_cons.2 hd

theorem isTrimmed_of_all (h : ∀ c ∈ t, isBlank c = false) : IsTrimmed t := by
  have hstops : ∀ u : Text, (∀ c ∈ u, isBlank c = false) → Stops isBlank u := by
    intro u hu
    cases u with
    | nil => exact stops_nil
    | cons c u => exact stops_cons.2 (hu c List.mem_cons_self)
  exact ⟨hstops t h, hstops t.reverse fun c hc => h c (List.mem_reverse.1 hc)⟩

end Blank

/-- The number of characters that are no white space. -/
def ink (t : Text) : Nat :=
  t.countP fun c => !isBlank c

@[simp] theorem ink_append (s t : Text) : ink (s ++ t) = ink s + ink t :=
  List.countP_append

theorem ink_eq_zero_iff {t : Text} : ink t = 0 ↔ t.all isBlank = true := by
  simp [ink, List.countP_eq_zero]

@[simp] theorem ink_trim (t : Text) : ink (trim t) = ink t := by
  obtain ⟨before, after, ht, hbefore, hafter⟩ := exists_trim t
  have hsum := congrArg ink ht
  rw [ink_append, ink_append, ink_eq_zero_iff.2 hbefore, ink_eq_zero_iff.2 hafter] at hsum
  omega

end ScriptLens.Text
