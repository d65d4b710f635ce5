import ScriptLens.Proofs.Document.Line
import ScriptLens.Proofs.Document.Run

/-!
The two ways to read a column. One refuses a column that is not between two characters, the other
goes on to the next place; they agree wherever the first has an answer (`columns_agree`). A column
without one is behind the end of its line or between the two units of a wide character
(`Text.column_cases`), and both readings are told for each of these three.
-/

namespace ScriptLens

structure SplitsWide (column : Nat) (line before : Text) (c : Char) : Prop where
  stands : ∃ after, line = before ++ c :: after
  wide : units c = 2
  inside : column = before.width + 1

theorem units_eq_one_or_two (c : Char) : units c = 1 ∨ units c = 2 := by
  unfold units
  split
  · exact .inl rfl
  · exact .inr rfl

theorem SplitsWide.cons {column : Nat} {line before : Text} {c d : Char}
    (h : SplitsWide column line before c) :
    SplitsWide (units d + column) (d :: line) (d :: before) c := by
  obtain ⟨⟨after, rfl⟩, hwide, rfl⟩ := h
  exact ⟨⟨after, rfl⟩, hwide, (Nat.add_assoc _ _ _).symm⟩

namespace Text

theorem column_cases (column : Nat) (line : Text) :
    (∃ before after, line = before ++ after ∧ before.width = column) ∨ line.width < column ∨
      ∃ before c, SplitsWide column line before c := by
  induction line generalizing column with
  | nil =>
    cases column with
    | zero => exact .inl ⟨[], [], rfl, rfl⟩
    | succ n => exact .inr (.inl (Nat.succ_pos n))
  | cons c t ih =>
    by_cases hzero : column = 0
    · exact .inl ⟨[], c :: t, rfl, hzero.symm⟩
    · by_cases hunits : units c ≤ column
      · obtain ⟨n, rfl⟩ := Nat.exists_eq_add_of_le hunits
        rcases ih n with ⟨before, after, rfl, rfl⟩ | hpast | ⟨before, d, hsplits⟩
        · exact .inl ⟨c :: before, after, rfl, rfl⟩
        · exact .inr (.inl (Nat.add_lt_add_left hpast _))
        · exact .inr (.inr ⟨c :: before, d, hsplits.cons⟩)
      · have htwo := units_eq_one_or_two c
        have hwidth : width [] = 0 := rfl
        exact .inr (.inr ⟨[], c, ⟨t, rfl⟩, by omega, by omega⟩)

theorem width_lt_of_concat {t shorter : Text} {c : Char} (h : t = shorter ++ [c]) :
    shorter.width < t.width := by
  have hpos := units_pos c
  rw [h, width_append, width, width]
  omega

theorem width_le_byteSize (t : Text) : t.width ≤ t.byteSize := by
  induction t with
  | nil => exact Nat.le_refl _
  | cons c t ih => exact Nat.add_le_add (units_le_utf8Size c) ih

theorem columnOffset_of_cutAt {column : Nat} {line before after : Text}
    (h : CutAt column line before after) : line.columnOffset column = before.byteSize := by
  rw [columnOffset, ((cutAt_cutAtColumn column line).unique h).1]

theorem columnOffset_of_width (before after : Text) :
    (before ++ after).columnOffset before.width = before.byteSize :=
  columnOffset_of_cutAt ⟨rfl, fun _ => Nat.le_refl _, fun _ _ => width_lt_of_concat⟩

theorem columnOffset_of_past {column : Nat} {line : Text} (h : line.width < column) :
    line.columnOffset column = line.byteSize :=
  columnOffset_of_cutAt ⟨List.append_nil line, fun hnil => absurd rfl hnil,
    fun _ _ hline => (width_lt_of_concat hline).trans h⟩

end Text

namespace SplitsWide

variable {column : Nat} {line before : Text} {c : Char}

theorem columnOffset_eq (h : SplitsWide column line before c) :
    line.columnOffset column = (before ++ [c]).byteSize := by
  obtain ⟨⟨after, rfl⟩, hwide, rfl⟩ := h
  have hcut : CutAt (before.width + 1) (before ++ c :: after) (before ++ [c]) after := by
    refine ⟨by simp, fun _ => ?_, fun shorter last hlast => ?_⟩
    · rw [Text.width_append, Text.width, hwide]
      omega
    · obtain ⟨rfl, -⟩ := List.append_inj' hlast rfl
      exact Nat.lt_succ_self _
  exact Text.columnOffset_of_cutAt hcut

theorem toColumn?_eq_none (h : SplitsWide column line before c) :
    Text.toColumn? column line = none := by
  obtain ⟨⟨after, rfl⟩, hwide, rfl⟩ := h
  cases hcolumn : Text.toColumn? (before.width + 1) (before ++ c :: after) with
  | none => rfl
  | some found =>
    obtain ⟨rest, hparts, hwidth⟩ := Text.toColumn?_eq_some hcolumn
    rcases List.append_eq_append_iff.1 hparts with ⟨x, rfl, hx⟩ | ⟨x, rfl, -⟩
    · -- what was passed behind `before` is nothing or begins with the wide character
      cases x with
      | nil => simp at hwidth
      | cons d x =>
        obtain ⟨rfl, -⟩ := List.cons.inj hx
        rw [Text.width_append, Text.width] at hwidth
        omega
    · rw [Text.width_append] at hwidth
      omega

end SplitsWide

theorem Line.StandsIn.slice?_content {l : Line} {n : Nat} {ending t before after : Text}
    (h : l.StandsIn n ending t) (hcontent : l.content = before ++ after) :
    t.slice? l.start (l.start + before.byteSize) = some before := by
  obtain ⟨passed, rest, rfl, hstart, -⟩ := h
  rw [hstart, hcontent, List.append_assoc before]
  exact Text.slice?_append _ _ _

theorem Line.StandsIn.width_le {l : Line} {n : Nat} {ending t : Text} (h : l.StandsIn n ending t) :
    l.content.width ≤ t.byteSize := by
  obtain ⟨passed, rest, rfl, -⟩ := h
  have hwidth := l.content.width_le_byteSize
  simp only [Text.byteSize_append]
  omega

namespace Document

variable {d : Document} {p : Position} {l : Line}

theorem textBefore?_eq (hl : d.line? p.line = some l) :
    d.textBefore? p = Text.toColumn? p.column l.content := by
  rw [textBefore?, hl, Option.bind_some]

theorem offset?_eq (hl : d.line? p.line = some l) :
    d.offset? p =
      (Text.toColumn? p.column l.content).map fun before => l.start + before.byteSize := by
  rw [offset?, hl, Option.bind_some]

theorem offset?_eq_none_iff (hl : d.line? p.line = some l) :
    d.offset? p = none ↔
      l.content.width < p.column ∨ ∃ before c, SplitsWide p.column l.content before c := by
  rw [offset?_eq hl, Option.map_eq_none_iff]
  constructor
  · intro hnone
    rcases Text.column_cases p.column l.content with ⟨before, after, hcontent, hwidth⟩ | hno
    · rw [hcontent, ← hwidth, Text.toColumn?_append] at hnone
      cases hnone
    · exact hno
  · rintro (hpast | ⟨before, c, hsplits⟩)
    · exact Text.toColumn?_eq_none hpast
    · exact hsplits.toColumn?_eq_none

/-- In a text of less than 4 GiB the columns of every line count in 32 bits, and both readings of a
column agree on every line. If a position has an offset, the other reading of its column is this
offset behind the beginning of the line, and the text before the position is the text in between. A
position on a line has no offset exactly if its column is behind the end of the line, where the
other reading is the length of the line, or inside a wide character, where it is the end of that
character. -/
theorem columns_agree (d : Document) (hsize : d.text.byteSize < UInt32.size) (p : Position)
    (l : Line) (hl : d.line? p.line = some l) :
    l.content.width < UInt32.size ∧ d.text.slice? l.start l.stop = some l.content ∧
      (∀ o, d.offset? p = some o →
        l.start ≤ o ∧ l.content.columnOffset p.column = o - l.start ∧
          ∃ before, d.textBefore? p = some before ∧ d.text.slice? l.start o = some before ∧
            l.content.slice? 0 (o - l.start) = some before) ∧
        (d.offset? p = none ↔
          l.content.width < p.column ∨ ∃ before c, SplitsWide p.column l.content before c) ∧
          (l.content.width < p.column →
            l.content.columnOffset p.column = l.content.byteSize) ∧
            ∀ before c, SplitsWide p.column l.content before c →
              l.content.columnOffset p.column = (before ++ [c]).byteSize := by
  obtain ⟨ending, hstands⟩ := Line.standsIn_of_line? hl
  refine ⟨hstands.width_le.trans_lt hsize, hstands.slice?_content (List.append_nil _).symm, ?_,
    offset?_eq_none_iff hl, Text.columnOffset_of_past, fun before c h => h.columnOffset_eq⟩
  intro o ho
  rw [offset?_eq hl] at ho
  obtain ⟨before, hbefore, rfl⟩ := Option.map_eq_some_iff.1 ho
  obtain ⟨after, hcontent, hwidth⟩ := Text.toColumn?_eq_some hbefore
  have hback : l.start + before.byteSize - l.start = before.byteSize := by omega
  refine ⟨Nat.le_add_right _ _, ?_, before, (textBefore?_eq hl).trans hbefore,
    hstands.slice?_content hcontent, ?_⟩
  · rw [hback, hcontent, ← hwidth, Text.columnOffset_of_width]
  · rw [hback, hcontent, Text.slice?_left]

def wideColumns : Document := ⟨"\r\na😀b\r\n".toList, .markup⟩

theorem wideColumns_agree :
    wideColumns.text.byteSize < UInt32.size ∧
      wideColumns.line? 1 = some ⟨2, "a😀b".toList⟩ ∧
      (wideColumns.offset? ⟨1, 3⟩ = some 7 ∧ Text.columnOffset "a😀b".toList 3 = 7 - 2) ∧
      (wideColumns.offset? ⟨1, 2⟩ = none ∧
        SplitsWide 2 "a😀b".toList ['a'] '😀' ∧ Text.columnOffset "a😀b".toList 2 = 5) ∧
      (Text.width "a😀b".toList < 4294967295 ∧
        Text.columnOffset "a😀b".toList 4294967295 = 6) := by
  have hsize : wideColumns.text.byteSize < UInt32.size := by decide +kernel
  have hline : wideColumns.line? 1 = some ⟨2, "a😀b".toList⟩ := by decide +kernel
  have hbehind : wideColumns.offset? ⟨1, 3⟩ = some 7 := by decide +kernel
  have hsplits : SplitsWide 2 "a😀b".toList ['a'] '😀' := ⟨⟨['b'], rfl⟩, rfl, rfl⟩
  have hpast : Text.width "a😀b".toList < 4294967295 := by decide +kernel
  obtain ⟨-, -, hagree, -⟩ := columns_agree wideColumns hsize ⟨1, 3⟩ _ hline
  obtain ⟨-, -, -, hnone, -, hinside⟩ := columns_agree wideColumns hsize ⟨1, 2⟩ _ hline
  obtain ⟨-, -, -, -, hend, -⟩ := columns_agree wideColumns hsize ⟨1, 4294967295⟩ _ hline
  exact ⟨hsize, hline, ⟨hbehind, (hagree 7 hbehind).2.1⟩,
    ⟨hnone.2 (.inr ⟨['a'], '😀', hsplits⟩), hsplits, hinside ['a'] '😀' hsplits⟩, hpast, hend hpast⟩

end Document

end ScriptLens
