import ScriptLens.Document
import ScriptLens.Proofs.Text

/-!
Positions and byte offsets of the same places. A place is given by the text before it: `positionAt`
counts that text's lines and columns, and `offset?` leads back from them unless the place is inside
a line break. Positions stand in the order of their places.
-/

namespace ScriptLens

namespace Text

theorem fields_append_left {separator : Char} {x t piece : Text} {more : List Text}
    (hx : separator ∉ x) (ht : t.fields separator = piece :: more) :
    fields separator (x ++ t) = (x ++ piece) :: more := by
  induction x with
  | nil => exact ht
  | cons c x ih =>
    have hc : c ≠ separator := fun he => hx (by simp [he])
    have hx' : separator ∉ x := fun hm => hx (by simp [hm])
    simp [fields, hc, ih hx']

theorem head?_of_fields_nil {separator : Char} {t next : Text} {more : List Text}
    (h : t.fields separator = [] :: next :: more) : t.head? = some separator := by
  cases t with
  | nil => simp [fields] at h
  | cons c t =>
    unfold fields at h
    split at h
    next hc => simp [hc]
    next => split at h <;> simp at h

theorem toColumn?_append (x t : Text) : toColumn? x.width (x ++ t) = some x := by
  induction x with
  | nil => simp [width, toColumn?]
  | cons c x ih =>
    have hpos := units_pos c
    obtain ⟨n, hn⟩ : ∃ n, units c + width x = n + 1 := ⟨units c + width x - 1, by omega⟩
    have hrest : n + 1 - units c = width x := by omega
    rw [width, hn, List.cons_append, toColumn?, if_pos (by omega), hrest, ih]
    rfl

end Text

namespace Position

/-- The position after a text that begins at `p`. -/
def after (p : Position) (t : Text) : Position :=
  t.foldl advance p

def Precedes (p q : Position) : Prop :=
  p.line < q.line ∨ p.line = q.line ∧ p.column < q.column

theorem after_append (p : Position) (s t : Text) : p.after (s ++ t) = (p.after s).after t := by
  simp [after]

theorem le_iff {p q : Position} :
    p.le q = true ↔ p.line < q.line ∨ p.line = q.line ∧ p.column ≤ q.column := by
  simp [le]

theorem precedes_advance (p : Position) (c : Char) : p.Precedes (p.advance c) := by
  have hpos := units_pos c
  unfold advance Precedes
  split
  · simp
  · refine .inr ⟨rfl, ?_⟩
    change p.column < p.column + units c
    omega

theorem Precedes.trans {p q r : Position} (h : p.Precedes q) (h' : q.Precedes r) :
    p.Precedes r := by
  unfold Precedes at *
  omega

theorem precedes_after (p : Position) {t : Text} (ht : t ≠ []) : p.Precedes (p.after t) := by
  induction t generalizing p with
  | nil => contradiction
  | cons c t ih =>
    have hstep := p.precedes_advance c
    cases t with
    | nil => exact hstep
    | cons d t => exact hstep.trans (ih (p.advance c) (by simp))

theorem le_after (p : Position) (t : Text) : p.le (p.after t) = true := by
  rw [le_iff]
  cases t with
  | nil => exact .inr ⟨rfl, Nat.le_refl _⟩
  | cons c t =>
    have hafter : p.Precedes (p.after (c :: t)) := p.precedes_after (by simp)
    unfold Precedes at hafter
    omega

theorem after_line (n line column : Nat) (t : Text) :
    after ⟨n + line, column⟩ t =
      ⟨n + (after ⟨line, column⟩ t).line, (after ⟨line, column⟩ t).column⟩ := by
  induction t generalizing line column with
  | nil => rfl
  | cons c t ih =>
    by_cases hc : c = '\n'
    · have hstep := ih (line + 1) 0
      simpa [after, advance, hc, Nat.add_assoc] using hstep
    · have hstep := ih line (column + units c)
      simpa [after, advance, hc] using hstep

end Position

/-- Two ranges without a common position, not even at their ends. -/
def Range.Apart (r r' : Range) : Prop :=
  ∀ p, ¬(r.contains p = true ∧ r'.contains p = true)

theorem Range.apart_of_precedes {r r' : Range} (h : r.stop.Precedes r'.start) : r.Apart r' := by
  intro p hp
  simp only [Range.contains, Bool.and_eq_true, Position.le_iff] at hp
  unfold Position.Precedes at h
  omega

/-- Two parts of a text do not share a line break of two characters. -/
def Parted (before after : Text) : Prop :=
  before.getLast? = some '\r' → after.head? ≠ some '\n'

theorem parted_cons {before after : Text} {c : Char} (h : c ≠ '\n') : Parted before (c :: after) :=
  fun _ hfeed => h (Option.some.inj hfeed)

theorem parted_nil {before : Text} : Parted before [] :=
  fun _ hfeed => nomatch hfeed

theorem parted_concat {before after : Text} {c : Char} (h : c ≠ '\r') :
    Parted (before ++ [c]) after := by
  intro hreturn
  rw [List.getLast?_concat] at hreturn
  exact absurd (Option.some.inj hreturn) h

namespace Line

theorem dropReturn_eq (piece : Text) :
    dropReturn piece = if piece.getLast? = some '\r' then piece.dropLast else piece := by
  cases hr : piece.reverse with
  | nil =>
    obtain rfl := List.reverse_eq_nil_iff.1 hr
    rfl
  | cons c t =>
    obtain rfl : piece = t.reverse ++ [c] := by
      rw [← List.reverse_reverse piece, hr, List.reverse_cons]
    by_cases hc : c = '\r'
    · simp [dropReturn, Text.before?, Text.after?, hc]
    · have hc' : ¬ '\r' = c := fun he => hc he.symm
      simp [dropReturn, Text.before?, Text.after?, hc, hc']

/-- A line break takes nothing off a part of the line that ends before it. -/
theorem dropReturn_append {x piece : Text} (h : piece = [] → x.getLast? ≠ some '\r') :
    ∃ z, dropReturn (x ++ piece) = x ++ z := by
  rw [dropReturn_eq]
  by_cases hpiece : piece = []
  · subst hpiece
    refine ⟨[], ?_⟩
    rw [List.append_nil, if_neg (h rfl)]
  · split
    · exact ⟨piece.dropLast, List.dropLast_append_of_ne_nil hpiece⟩
    · exact ⟨piece, rfl⟩

theorem layOut_head {x r : Text} (start : Nat) (hx : '\n' ∉ x) (hr : Parted x r) :
    ∃ z more, layOut start ((x ++ r).fields '\n') = ⟨start, x ++ z⟩ :: more := by
  cases hfields : r.fields '\n' with
  | nil => exact absurd hfields (Text.fields_ne_nil _ r)
  | cons piece more =>
    rw [Text.fields_append_left hx hfields]
    cases more with
    | nil => exact ⟨piece, [], rfl⟩
    | cons next more =>
      have hpiece : piece = [] → x.getLast? ≠ some '\r' := by
        rintro rfl hreturn
        exact hr hreturn (Text.head?_of_fields_nil hfields)
      obtain ⟨z, hz⟩ := dropReturn_append hpiece
      exact ⟨z, layOut (start + (x ++ piece).byteSize + 1) (next :: more), by rw [layOut, hz]⟩

theorem layOut_break {x t : Text} (start : Nat) (hx : '\n' ∉ x) :
    layOut start ((x ++ '\n' :: t).fields '\n') =
      ⟨start, dropReturn x⟩ :: layOut (start + x.byteSize + 1) (t.fields '\n') := by
  rw [Text.fields_append hx]
  cases hfields : t.fields '\n' with
  | nil => exact absurd hfields (Text.fields_ne_nil _ t)
  | cons piece more => rfl

def offsetIn? (lines : List Line) (p : Position) : Option Nat :=
  lines[p.line]?.bind fun line =>
    (Text.toColumn? p.column line.content).map fun before => line.start + before.byteSize

theorem offsetIn?_after {x l r : Text} (start : Nat) (hx : '\n' ∉ x) (hr : Parted (x ++ l) r) :
    offsetIn? (layOut start ((x ++ (l ++ r)).fields '\n')) (Position.after ⟨0, x.width⟩ l) =
      some (start + (x ++ l).byteSize) := by
  induction l generalizing x start with
  | nil =>
    rw [List.append_nil] at hr
    obtain ⟨z, more, hline⟩ := layOut_head start hx hr
    simp [offsetIn?, hline, Position.after, Text.toColumn?_append]
  | cons c l ih =>
    by_cases hc : c = '\n'
    · subst hc
      have hl : Parted ([] ++ l) r := by
        intro hreturn
        rw [List.nil_append] at hreturn
        exact hr (by simp [List.getLast?_append, List.getLast?_cons, hreturn])
      have hsize : '\n'.utf8Size = 1 := rfl
      have hrest := ih (start + x.byteSize + 1) (x := []) (by simp) hl
      have hposition : Position.after ⟨0, x.width⟩ ('\n' :: l) =
          ⟨1 + (Position.after ⟨0, 0⟩ l).line, (Position.after ⟨0, 0⟩ l).column⟩ := by
        have hstep := Position.after_line 1 0 0 l
        simpa [Position.after, Position.advance] using hstep
      rw [hposition, List.cons_append, layOut_break start hx]
      simpa [offsetIn?, Nat.add_comm 1, Text.width, Nat.add_assoc, hsize] using hrest
    · have hxc : '\n' ∉ x ++ [c] := by
        simp [hx, Ne.symm hc]
      have hrest := ih start hxc (by simpa using hr)
      simpa [Position.after, Position.advance, hc, Text.width] using hrest

end Line

namespace Document

theorem walk_after (p : Position) (before after : Text) :
    walk p before.byteSize (before ++ after) = p.after before := by
  induction before generalizing p with
  | nil => simp [walk, Position.after]
  | cons c before ih =>
    have hpos := c.utf8Size_pos
    obtain ⟨n, hn⟩ : ∃ n, c.utf8Size + Text.byteSize before = n + 1 :=
      ⟨c.utf8Size + Text.byteSize before - 1, by omega⟩
    have hrest : n + 1 - c.utf8Size = Text.byteSize before := by omega
    rw [Text.byteSize_cons, hn, List.cons_append, walk, if_pos (by omega), hrest, ih]
    rfl

theorem positionAt_append {d : Document} {before after : Text} (h : d.text = before ++ after) :
    d.positionAt before.byteSize = Position.zero.after before := by
  rw [positionAt, h, walk_after]

theorem offset?_after {d : Document} {before after : Text} (h : d.text = before ++ after)
    (hparted : Parted before after) :
    d.offset? (Position.zero.after before) = some before.byteSize := by
  have hback := Line.offsetIn?_after (x := []) 0 (by simp) hparted
  simpa [offset?, line?, Line.ofText, h, Line.offsetIn?, Text.width, Position.zero] using hback

theorem rangeOf_append {d : Document} {before part after : Text}
    (h : d.text = before ++ (part ++ after)) :
    d.rangeOf before.byteSize (before ++ part).byteSize =
      ⟨Position.zero.after before, Position.zero.after (before ++ part)⟩ := by
  have hstop : d.text = (before ++ part) ++ after := by rw [h, List.append_assoc]
  rw [rangeOf, positionAt_append h, positionAt_append hstop]

/-- A part is found again at its range, unless an end of it is inside a line break. -/
theorem slice?_after {d : Document} {before part after : Text}
    (h : d.text = before ++ (part ++ after)) (hstart : Parted before (part ++ after))
    (hstop : Parted (before ++ part) after) :
    d.slice? ⟨Position.zero.after before, Position.zero.after (before ++ part)⟩ = some part := by
  have h' : d.text = (before ++ part) ++ after := by rw [h, List.append_assoc]
  rw [slice?, offset?_after h hstart, Option.bind_some, offset?_after h' hstop, Option.bind_some, h,
    Text.byteSize_append, Text.slice?_append]

end Document

end ScriptLens
