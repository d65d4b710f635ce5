import Mathlib.Data.List.Infix
import ScriptLens.Proofs.Document.Position

/-!
The lines of a text and the way between its positions and byte offsets. `Line.StandsIn` tells what a
line is without the splitting that finds it; the lines of a document are just these. A position that
has an offset is the position of that offset, and an offset is found again from its position unless
it lies inside a line break (`positions_and_offsets`).
-/

namespace ScriptLens

namespace Text

theorem length_fields (separator : Char) (t : Text) :
    (t.fields separator).length = t.count separator + 1 := by
  induction t with
  | nil => rfl
  | cons c t ih =>
    unfold fields
    split
    next hc => simp [hc, ih]
    next hc =>
      rw [List.count_cons_of_ne hc, ← ih]
      split
      next hfields => exact absurd hfields (fields_ne_nil separator t)
      next hfields => simp [hfields]

theorem toColumn?_eq_some {n : Nat} {t before : Text} (h : toColumn? n t = some before) :
    ∃ after, t = before ++ after ∧ width before = n := by
  induction t generalizing n before with
  | nil =>
    cases n with
    | zero =>
      cases h
      exact ⟨[], rfl, rfl⟩
    | succ n => cases h
  | cons c t ih =>
    cases n with
    | zero =>
      cases h
      exact ⟨c :: t, rfl, rfl⟩
    | succ n =>
      rw [toColumn?] at h
      split at h
      next hunits =>
        obtain ⟨before, hbefore, rfl⟩ := Option.map_eq_some_iff.1 h
        obtain ⟨after, rfl, hwidth⟩ := ih hbefore
        refine ⟨after, rfl, ?_⟩
        rw [width]
        omega
      next => cases h

theorem toColumn?_eq_none {n : Nat} {t : Text} (h : width t < n) : toColumn? n t = none := by
  cases hcolumn : toColumn? n t with
  | none => rfl
  | some before =>
    obtain ⟨after, rfl, hwidth⟩ := toColumn?_eq_some hcolumn
    rw [width_append] at h
    omega

end Text

theorem units_le_utf8Size (c : Char) : units c ≤ c.utf8Size := by
  have hpos := c.utf8Size_pos
  unfold units
  split
  next => exact hpos
  next hwide =>
    have hlarge : ∀ n : UInt32, n.toNat < 0x10000 → ¬c.val ≤ n := by
      intro n hn hle
      have hval : c.val.toNat ≤ n.toNat := hle
      exact hwide (Nat.lt_of_le_of_lt hval hn)
    have hsize : c.utf8Size = 4 := by
      rw [Char.utf8Size, if_neg (hlarge _ (by decide)), if_neg (hlarge _ (by decide)),
        if_neg (hlarge _ (by decide))]
    omega

namespace Position

theorem line_after (p : Position) (t : Text) : (p.after t).line = p.line + t.count '\n' := by
  induction t generalizing p with
  | nil => rfl
  | cons c t ih =>
    have hstep : p.after (c :: t) = (p.advance c).after t := rfl
    rw [hstep, ih]
    by_cases hc : c = '\n'
    · subst hc
      simp only [advance, if_true, List.count_cons_self]
      omega
    · rw [List.count_cons_of_ne hc, advance, if_neg hc]

theorem after_of_not_mem (p : Position) {t : Text} (h : '\n' ∉ t) :
    p.after t = ⟨p.line, p.column + t.width⟩ := by
  induction t generalizing p with
  | nil => rfl
  | cons c t ih =>
    obtain ⟨hc, ht⟩ := not_or.1 (mt List.mem_cons.2 h)
    have hstep : p.after (c :: t) = (p.advance c).after t := rfl
    rw [hstep, ih _ ht, advance, if_neg (Ne.symm hc), Text.width, Nat.add_assoc]

theorem after_of_line_start {before t : Text} (hbefore : ∀ c ∈ before.getLast?, c = '\n')
    (h : '\n' ∉ t) : zero.after (before ++ t) = ⟨before.count '\n', t.width⟩ := by
  have hline : (zero.after before).line = before.count '\n' := by
    rw [line_after, zero, Nat.zero_add]
  have hcolumn : (zero.after before).column = 0 := by
    rcases List.eq_nil_or_concat before with rfl | ⟨u, c, rfl⟩
    · rfl
    · obtain rfl : c = '\n' := hbefore c (by simp)
      rw [List.concat_eq_append, after_append]
      rfl
  rw [after_append, after_of_not_mem _ h, hline, hcolumn, Nat.zero_add]

theorem line_add_column_after_le (p : Position) (t : Text) :
    (p.after t).line + (p.after t).column ≤ p.line + p.column + t.byteSize := by
  induction t generalizing p with
  | nil => exact Nat.le_refl _
  | cons c t ih =>
    have hstep : p.after (c :: t) = (p.advance c).after t := rfl
    have hrest := ih (p.advance c)
    have hunits := units_le_utf8Size c
    have hsize := c.utf8Size_pos
    have hfirst : (p.advance c).line + (p.advance c).column ≤ p.line + p.column + c.utf8Size := by
      unfold advance
      split
      · dsimp only
        omega
      · dsimp only
        omega
    rw [hstep, Text.byteSize_cons]
    omega

end Position

/-! What a line is. -/

namespace Line

/-- The byte offset at which the content of a line ends. -/
def stop (l : Line) : Nat :=
  l.start + l.content.byteSize

/-- What stands behind the content of a line, in front of the rest of the text: a line break, or
nothing at the end of the text. -/
inductive Ends (content : Text) : (ending rest : Text) → Prop
  | feed {rest : Text} (h : content.getLast? ≠ some '\r') : Ends content ['\n'] rest
  | returnFeed {rest : Text} : Ends content ['\r', '\n'] rest
  | text : Ends content [] []

/-- A line stands in a text behind the line feeds that its number counts, up to its ending. -/
def StandsIn (l : Line) (number : Nat) (ending t : Text) : Prop :=
  ∃ before rest : Text, t = before ++ (l.content ++ (ending ++ rest)) ∧ l.start = before.byteSize ∧
    before.count '\n' = number ∧ (∀ c ∈ before.getLast?, c = '\n') ∧ '\n' ∉ l.content ∧
    Ends l.content ending rest

theorem ends_dropReturn (x rest : Text) :
    ∃ ending, x ++ '\n' :: rest = dropReturn x ++ (ending ++ rest) ∧
      Ends (dropReturn x) ending rest := by
  rw [dropReturn_eq]
  split
  next hreturn =>
    refine ⟨['\r', '\n'], ?_, .returnFeed⟩
    have hlast := List.dropLast_append_getLast? '\r' hreturn
    nth_rewrite 1 [← hlast]
    simp
  next hreturn => exact ⟨['\n'], rfl, .feed hreturn⟩

theorem dropReturn_subset (x : Text) : dropReturn x ⊆ x := by
  rw [dropReturn_eq]
  split
  next => exact List.dropLast_subset x
  next => exact List.Subset.refl x

theorem length_layOut (start : Nat) (pieces : List Text) :
    (layOut start pieces).length = pieces.length := by
  induction start, pieces using layOut.induct with
  | case1 => rfl
  | case2 => rfl
  | case3 start piece next more ih => simpa [layOut] using ih

theorem standsIn_of_layOut {before t : Text} {n : Nat} {l : Line}
    (hbefore : ∀ c ∈ before.getLast?, c = '\n')
    (h : (layOut before.byteSize (t.fields '\n'))[n]? = some l) :
    ∃ ending, l.StandsIn (before.count '\n' + n) ending (before ++ t) := by
  induction n generalizing before t with
  | zero =>
    by_cases hfeed : '\n' ∈ t
    · obtain ⟨x, rest, rfl, hx⟩ := List.eq_append_cons_of_mem hfeed
      rw [layOut_break _ hx] at h
      obtain rfl : _ = l := by simpa using h
      obtain ⟨ending, htext, hends⟩ := ends_dropReturn x rest
      exact ⟨ending, before, rest, by rw [htext], rfl, rfl, hbefore,
        fun hmem => hx (dropReturn_subset x hmem), hends⟩
    · rw [Text.fields_of_not_mem hfeed] at h
      obtain rfl : _ = l := by simpa [layOut] using h
      exact ⟨[], before, [], by simp, rfl, rfl, hbefore, hfeed, .text⟩
  | succ n ih =>
    by_cases hfeed : '\n' ∈ t
    · obtain ⟨x, rest, rfl, hx⟩ := List.eq_append_cons_of_mem hfeed
      have hfeedSize : '\n'.utf8Size = 1 := rfl
      have hsize : (before ++ (x ++ ['\n'])).byteSize = before.byteSize + Text.byteSize x + 1 := by
        simp [hfeedSize, Nat.add_assoc]
      rw [layOut_break _ hx, List.getElem?_cons_succ, ← hsize] at h
      obtain ⟨ending, hstands⟩ := ih (by simp) h
      have hcount : (before ++ (x ++ ['\n'])).count '\n' = before.count '\n' + 1 := by
        simp [List.count_eq_zero_of_not_mem hx]
      rw [hcount] at hstands
      refine ⟨ending, ?_⟩
      simpa [Nat.add_assoc, Nat.add_comm 1] using hstands
    · rw [Text.fields_of_not_mem hfeed] at h
      simp [layOut] at h

theorem standsIn_of_line? {d : Document} {n : Nat} {l : Line} (h : d.line? n = some l) :
    ∃ ending, l.StandsIn n ending d.text := by
  have hstands := @standsIn_of_layOut [] d.text n l (by simp) h
  simpa using hstands

theorem exists_line? {d : Document} {n : Nat} (h : n ≤ d.text.count '\n') :
    ∃ l, d.line? n = some l := by
  have hlength : (ofText d.text).length = d.text.count '\n' + 1 := by
    rw [ofText, length_layOut, Text.length_fields]
  exact ⟨_, List.getElem?_eq_getElem (by omega)⟩

/-- A place behind a part `w` of a line is in the line's content, unless it is between the two
characters of a line break. -/
theorem Ends.cut {content ending rest w after : Text} (h : Ends content ending rest)
    (hw : '\n' ∉ w) (heq : content ++ (ending ++ rest) = w ++ after) :
    (∃ z, content = w ++ z) ∨ w = content ++ ['\r'] ∧ ending = ['\r', '\n'] := by
  rcases List.append_eq_append_iff.1 heq with ⟨x, rfl, hx⟩ | ⟨z, hz, -⟩
  · have hfeed : '\n' ∉ x := fun hmem => hw (List.mem_append_right _ hmem)
    cases x with
    | nil => exact .inl ⟨[], by simp⟩
    | cons c x =>
      cases h with
      | feed hreturn =>
        obtain rfl : '\n' = c := (List.cons.inj hx).1
        exact absurd List.mem_cons_self hfeed
      | returnFeed =>
        obtain ⟨rfl, hmore⟩ := List.cons.inj hx
        cases x with
        | nil => exact .inr ⟨rfl, rfl⟩
        | cons d x =>
          obtain rfl : '\n' = d := (List.cons.inj hmore).1
          exact absurd (List.mem_cons_of_mem _ List.mem_cons_self) hfeed
      | text => cases hx
  · exact .inl ⟨z, hz⟩

theorem StandsIn.exists_part {l : Line} {n : Nat} {ending before after : Text}
    (h : l.StandsIn n ending (before ++ after)) (hcount : before.count '\n' = n) :
    ∃ w, before.byteSize = l.start + w.byteSize ∧ Position.zero.after before = ⟨n, w.width⟩ ∧
      ((∃ z, l.content = w ++ z) ∨ w = l.content ++ ['\r'] ∧ ending = ['\r', '\n']) := by
  obtain ⟨first, rest, heq, hstart, hfirst, hlast, -, hends⟩ := h
  obtain ⟨w, rfl, hw⟩ : ∃ w, before = first ++ w ∧ l.content ++ (ending ++ rest) = w ++ after := by
    rcases List.append_eq_append_iff.1 heq with ⟨x, rfl, hx⟩ | ⟨w, rfl, hw⟩
    · -- between the place and the line feed before the line there would be a line more
      obtain rfl : x = [] := by
        rcases List.eq_nil_or_concat x with rfl | ⟨u, c, rfl⟩
        · rfl
        · obtain rfl : c = '\n' := hlast c (by simp [List.getLast?_append])
          rw [List.count_append] at hfirst
          simp at hfirst
          omega
      exact ⟨[], by simp, hx.symm⟩
    · exact ⟨w, rfl, hw⟩
  have hfeed : '\n' ∉ w := by
    rw [List.count_append, hfirst] at hcount
    exact List.count_eq_zero.1 (by omega)
  refine ⟨w, by rw [hstart, Text.byteSize_append], ?_, hends.cut hfeed hw⟩
  rw [Position.after_of_line_start hlast hfeed, hfirst]

end Line

/-! Back and forth. -/

namespace Document

variable {d : Document}

theorem boundary_of_offset? {p : Position} {o : Nat} (h : d.offset? p = some o) :
    d.text.Boundary o ∧ d.positionAt o = p := by
  obtain ⟨l, hline, h⟩ := Option.bind_eq_some_iff.1 h
  obtain ⟨x, hx, rfl⟩ := Option.map_eq_some_iff.1 h
  obtain ⟨ending, before, rest, htext, hstart, hcount, hlast, hfeed, -⟩ :=
    Line.standsIn_of_line? hline
  obtain ⟨more, hcontent, hwidth⟩ := Text.toColumn?_eq_some hx
  have hcut : d.text = (before ++ x) ++ (more ++ (ending ++ rest)) := by
    rw [htext, hcontent]
    simp
  have hoffset : l.start + x.byteSize = (before ++ x).byteSize := by
    rw [hstart, Text.byteSize_append]
  refine ⟨⟨_, _, hcut, hoffset⟩, ?_⟩
  have hx : '\n' ∉ x := fun hmem => hfeed (hcontent ▸ List.mem_append_left _ hmem)
  rw [hoffset, positionAt_append hcut, Position.after_of_line_start hlast hx, hcount, hwidth]

theorem precedes_of_lt {o o' : Nat} (ho : d.text.Boundary o) (ho' : d.text.Boundary o')
    (h : o < o') : (d.positionAt o).Precedes (d.positionAt o') := by
  obtain ⟨before, after, htext, rfl⟩ := ho
  obtain ⟨before', after', htext', rfl⟩ := ho'
  rw [positionAt_append htext, positionAt_append htext']
  rcases List.append_eq_append_iff.1 (htext.symm.trans htext') with
    ⟨x, rfl, -⟩ | ⟨x, rfl, -⟩
  · have hx : x ≠ [] := by
      rintro rfl
      simp at h
    rw [Position.after_append]
    exact Position.precedes_after _ hx
  · rw [Text.byteSize_append] at h
    omega

/-- The way back from a position ends at its offset or, for a place inside a line break, nowhere. -/
theorem offset?_positionAt {before after : Text} (h : d.text = before ++ after) :
    ∃ l ending, d.line? (d.positionAt before.byteSize).line = some l ∧
      l.StandsIn (d.positionAt before.byteSize).line ending d.text ∧ l.start ≤ before.byteSize ∧
      before.byteSize ≤ l.stop + ending.byteSize ∧
      d.offset? (d.positionAt before.byteSize) =
        if before.byteSize ≤ l.stop then some before.byteSize else none := by
  have hcount : (Position.zero.after before).line = before.count '\n' := by
    rw [Position.line_after, Position.zero, Nat.zero_add]
  rw [positionAt_append h]
  obtain ⟨l, hline⟩ : ∃ l, d.line? (Position.zero.after before).line = some l :=
    Line.exists_line? (by rw [hcount, h, List.count_append]; omega)
  obtain ⟨ending, hstands⟩ := Line.standsIn_of_line? hline
  refine ⟨l, ending, hline, hstands, ?_⟩
  rw [h] at hstands
  obtain ⟨w, hsize, hposition, hplace⟩ := hstands.exists_part hcount.symm
  have hoffset : d.offset? (Position.zero.after before) =
      (Text.toColumn? w.width l.content).map fun x => l.start + x.byteSize := by
    rw [offset?, hline, Option.bind_some, hposition]
  rw [hoffset, hsize, Line.stop]
  refine ⟨Nat.le_add_right _ _, ?_⟩
  rcases hplace with ⟨z, hz⟩ | ⟨rfl, rfl⟩
  · rw [hz, Text.toColumn?_append, Text.byteSize_append, Option.map_some, if_pos (by omega)]
    exact ⟨by omega, rfl⟩
  · have hwidth : Text.width (l.content ++ ['\r']) = l.content.width + 1 := by
      rw [Text.width_append]
      rfl
    have hbytes : Text.byteSize (l.content ++ ['\r']) = l.content.byteSize + 1 := by
      rw [Text.byteSize_append]
      rfl
    have hbreak : Text.byteSize ['\r', '\n'] = 2 := rfl
    rw [Text.toColumn?_eq_none (by omega), hbytes, hbreak, if_neg (by omega)]
    exact ⟨by omega, rfl⟩

theorem fits_of_boundary {o : Nat} (h : d.text.byteSize < UInt32.size) (ho : d.text.Boundary o) :
    (d.positionAt o).line < UInt32.size ∧ (d.positionAt o).column < UInt32.size := by
  obtain ⟨before, after, htext, rfl⟩ := ho
  have hle := Position.line_add_column_after_le Position.zero before
  rw [positionAt_append htext]
  rw [htext, Text.byteSize_append] at h
  dsimp only [Position.zero] at hle ⊢
  omega

/-- In a text of less than 4 GiB every position counts in 32 bits, and positions of offsets between
characters are in the order of the offsets. A position that has an offset is the position of that
offset, which is between characters; and an offset between characters lies on a line of the text,
and is found again from its position if it is not behind the line's content, and only then. -/
theorem positions_and_offsets (d : Document) (h : d.text.byteSize < UInt32.size) :
    (∀ o, d.text.Boundary o →
        (d.positionAt o).line < UInt32.size ∧ (d.positionAt o).column < UInt32.size) ∧
      (∀ o o', d.text.Boundary o → d.text.Boundary o' → o < o' →
        (d.positionAt o).Precedes (d.positionAt o')) ∧
      (∀ p o, d.offset? p = some o → d.text.Boundary o ∧ d.positionAt o = p) ∧
      ∀ o, d.text.Boundary o →
        ∃ l ending, d.line? (d.positionAt o).line = some l ∧
          l.StandsIn (d.positionAt o).line ending d.text ∧ l.start ≤ o ∧
          o ≤ l.stop + ending.byteSize ∧
          d.offset? (d.positionAt o) = if o ≤ l.stop then some o else none := by
  refine ⟨fun o ho => fits_of_boundary h ho, fun o o' ho ho' hlt => precedes_of_lt ho ho' hlt,
    fun p o hp => boundary_of_offset? hp, ?_⟩
  rintro o ⟨before, after, htext, rfl⟩
  exact offset?_positionAt htext

def mixedBreaks : Document := ⟨"a\r\n😀\n".toList, .markup⟩

theorem mixedBreaks_positions :
    mixedBreaks.text.byteSize < UInt32.size ∧
      (mixedBreaks.text.Boundary 2 ∧ mixedBreaks.text.Boundary 7 ∧
        (mixedBreaks.positionAt 2).Precedes (mixedBreaks.positionAt 7)) ∧
      (mixedBreaks.offset? ⟨1, 2⟩ = some 7 ∧ mixedBreaks.positionAt 7 = ⟨1, 2⟩) ∧
      (∃ l : Line, l.start ≤ 2 ∧ ¬2 ≤ l.stop ∧ mixedBreaks.offset? (mixedBreaks.positionAt 2) = none) := by
  have hsize : mixedBreaks.text.byteSize < UInt32.size := by decide +kernel
  have hinside : mixedBreaks.text.Boundary 2 :=
    ⟨"a\r".toList, "\n😀\n".toList, by decide +kernel, by decide +kernel⟩
  have hwide : mixedBreaks.text.Boundary 7 :=
    ⟨"a\r\n😀".toList, "\n".toList, by decide +kernel, by decide +kernel⟩
  have hfound : mixedBreaks.offset? ⟨1, 2⟩ = some 7 := by decide +kernel
  obtain ⟨-, horder, hback, hforth⟩ := positions_and_offsets mixedBreaks hsize
  obtain ⟨l, ending, hline, -, hstart, -, hoffset⟩ := hforth 2 hinside
  refine ⟨hsize, ⟨hinside, hwide, horder 2 7 hinside hwide (by decide)⟩,
    ⟨hfound, (hback ⟨1, 2⟩ 7 hfound).2⟩, l, hstart, ?_⟩
  have hlost : mixedBreaks.offset? (mixedBreaks.positionAt 2) = none := by decide +kernel
  refine ⟨fun hle => ?_, hlost⟩
  rw [hlost, if_pos hle] at hoffset
  cases hoffset

end Document

end ScriptLens
