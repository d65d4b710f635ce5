import Mathlib.Data.List.Infix

/-!
The longest end of a list that has a property. A search that tries ends from the longest one on
finds it first.
-/

namespace ScriptLens

variable {α β : Type} {P : List α → Prop} {l s : List α}

structure LongestEnd (P : List α → Prop) (l s : List α) : Prop where
  suffix : s <:+ l
  holds : P s
  longest : ∀ longer, longer <:+ l → s.length < longer.length → ¬ P longer

namespace LongestEnd

theorem whole (h : P l) : LongestEnd P l l :=
  ⟨List.suffix_rfl, h, fun _ hsuffix hlength => absurd hsuffix.length_le (by omega)⟩

theorem cons {a : α} (h : LongestEnd P l s) (hnot : ¬ P (a :: l)) : LongestEnd P (a :: l) s := by
  refine ⟨h.suffix.trans (List.suffix_cons a l), h.holds, fun longer hlonger hlength => ?_⟩
  rcases List.suffix_cons_iff.1 hlonger with rfl | hlonger
  · exact hnot
  · exact h.longest longer hlonger hlength

theorem not_whole (h : LongestEnd P l s) (hne : s ≠ l) : ¬ P l := by
  refine h.longest l List.suffix_rfl (lt_of_le_of_ne h.suffix.length_le fun hlength => ?_)
  exact hne (h.suffix.eq_of_length hlength)

theorem of_cons {a : α} (h : LongestEnd P (a :: l) s) (hne : s ≠ a :: l) : LongestEnd P l s :=
  ⟨(List.suffix_cons_iff.1 h.suffix).resolve_left hne, h.holds, fun longer hlonger =>
    h.longest longer (hlonger.trans (List.suffix_cons a l))⟩

theorem exists_of_suffix (hs : s <:+ l) (h : P s) : ∃ longest, LongestEnd P l longest := by
  induction l with
  | nil =>
    obtain rfl := List.suffix_nil.1 hs
    exact ⟨[], whole h⟩
  | cons a l ih =>
    by_cases hwhole : P (a :: l)
    · exact ⟨a :: l, whole hwhole⟩
    · rcases List.suffix_cons_iff.1 hs with rfl | hs
      · exact absurd h hwhole
      · obtain ⟨longest, hlongest⟩ := ih hs
        exact ⟨longest, hlongest.cons hwhole⟩

end LongestEnd

/-- Of candidates from the longest to the shortest one, the longest that answers is found. -/
theorem findSome?_eq_some_iff_longest {cs : List (List α)} {f : List α → Option β} {b : β}
    (hcs : cs.Pairwise fun c c' => c'.length < c.length) :
    cs.findSome? f = some b ↔
      ∃ c ∈ cs, f c = some b ∧ ∀ c' ∈ cs, c.length < c'.length → f c' = none := by
  induction cs with
  | nil => simp
  | cons c cs ih =>
    obtain ⟨hc, hcs⟩ := List.pairwise_cons.1 hcs
    rw [List.findSome?_cons]
    cases hfound : f c with
    | some found =>
      constructor
      · intro h
        obtain rfl : found = b := by simpa using h
        refine ⟨c, List.mem_cons_self, hfound, fun c' hc' hlonger => ?_⟩
        rcases List.mem_cons.1 hc' with rfl | hc'
        · omega
        · exact absurd (hc c' hc') (by omega)
      · rintro ⟨c', hc', hb, hlongest⟩
        rcases List.mem_cons.1 hc' with rfl | hc'
        · rw [← hb, hfound]
        · have hnone := hlongest c List.mem_cons_self (hc c' hc')
          rw [hfound] at hnone
          cases hnone
    | none =>
      refine (ih hcs).trans ⟨?_, ?_⟩
      · rintro ⟨c', hc', hb, hlongest⟩
        refine ⟨c', List.mem_cons_of_mem c hc', hb, fun d hd hlonger => ?_⟩
        rcases List.mem_cons.1 hd with rfl | hd
        · exact hfound
        · exact hlongest d hd hlonger
      · rintro ⟨c', hc', hb, hlongest⟩
        rcases List.mem_cons.1 hc' with rfl | hc'
        · rw [hfound] at hb
          cases hb
        · exact ⟨c', hc', hb, fun d hd => hlongest d (List.mem_cons_of_mem c hd)⟩

end ScriptLens
