import Mathlib.Data.List.TakeWhile
import ScriptLens.Proofs.Text
import ScriptLens.Text.Column

/-!
The run of characters around a column of a line. A column that is past the end of the line cuts it
there, and one that falls inside a wide character cuts it behind that character. The run is what
touches the cut from both sides and cannot be made longer; it may be empty. It is found exactly if a
character next to the cut is accepted (`isSome_runAt_iff`), and where two classes of characters have
a run at one column, that of the wider class begins no later (`Run.Touches.exists_before`).
-/

namespace ScriptLens

/-- Where a column cuts a line: at the first place that reaches the column, or else at the end. -/
structure CutAt (column : Nat) (line before after : Text) : Prop where
  whole : before ++ after = line
  reached : after ≠ [] → column ≤ before.width
  first : ∀ (shorter : Text) c, before = shorter ++ [c] → shorter.width < column

theorem cutAt_cutAtColumn (column : Nat) (line : Text) :
    CutAt column line (Text.cutAtColumn column line).1 (Text.cutAtColumn column line).2 := by
  refine ⟨Text.append_cutAtColumn column line, ?_, ?_⟩
  · fun_induction Text.cutAtColumn column line with
    | case1 => simp
    | case2 => simp
    | case3 n c t before after hcut ih =>
      intro hafter
      rw [hcut] at ih
      have hreached := ih hafter
      simp only [Text.width] at hreached ⊢
      omega
  · fun_induction Text.cutAtColumn column line with
    | case1 => simp
    | case2 => simp
    | case3 n c t before after hcut ih =>
      intro shorter last hbefore
      rw [hcut] at ih
      cases shorter with
      | nil => exact Nat.succ_pos n
      | cons d shorter =>
        obtain ⟨rfl, hrest⟩ := List.cons.inj hbefore
        have hshorter := ih shorter last hrest
        simp only [Text.width]
        omega

namespace CutAt

variable {column : Nat} {line before after before' after' x : Text}

theorem eq_nil_between (h : CutAt column line before (x ++ after))
    (h' : CutAt column line (before ++ x) after) : x = [] := by
  rcases List.eq_nil_or_concat x with rfl | ⟨u, c, rfl⟩
  · rfl
  · have hreached := h.reached (by simp)
    have hfirst := h'.first (before ++ u) c (by simp)
    rw [Text.width_append] at hfirst
    omega

theorem unique (h : CutAt column line before after) (h' : CutAt column line before' after') :
    before = before' ∧ after = after' := by
  rcases List.append_eq_append_iff.1 (h.whole.trans h'.whole.symm) with
    ⟨x, rfl, rfl⟩ | ⟨x, rfl, rfl⟩
  · rw [h.eq_nil_between h']
    simp
  · rw [h'.eq_nil_between h]
    simp

end CutAt

/-- The run of accepted characters at a column: it touches the cut, and no character before it or
after it is accepted. -/
structure Run.Touches (run : Run) (accepts : Char → Bool) (line : Text) (column : Nat) : Prop where
  cut : ∃ left right, run.body = left ++ right ∧
    CutAt column line (run.before ++ left) (right ++ run.after)
  accepted : ∀ c ∈ run.body, accepts c = true
  opens : Stops accepts run.before.reverse
  closes : Stops accepts run.after

theorem exists_touches (accepts : Char → Bool) (line : Text) (column : Nat) :
    ∃ run : Run, run.Touches accepts line column ∧
      runAt accepts line column = if run.body = [] then none else some run := by
  have hcut := cutAt_cutAtColumn column line
  unfold runAt
  generalize Text.cutAtColumn column line = parts at hcut ⊢
  obtain ⟨before, after⟩ := parts
  refine ⟨⟨(before.reverse.dropWhile accepts).reverse,
    (before.reverse.takeWhile accepts).reverse ++ after.takeWhile accepts,
    after.dropWhile accepts⟩, ⟨⟨_, _, rfl, ?_⟩, ?_, ?_, stops_dropWhile accepts after⟩, ?_⟩
  · dsimp only
    rwa [← List.reverse_append, List.takeWhile_append_dropWhile, List.reverse_reverse,
      List.takeWhile_append_dropWhile]
  · intro c hc
    rcases List.mem_append.1 hc with hleft | hright
    · exact List.mem_takeWhile_imp (List.mem_reverse.1 hleft)
    · exact List.mem_takeWhile_imp hright
  · dsimp only
    rw [List.reverse_reverse]
    exact stops_dropWhile accepts before.reverse
  · simp only [List.append_eq_nil_iff, Bool.and_eq_true, List.isEmpty_iff]

namespace Text

def charBefore? (t : Text) (offset : Nat) : Option Char :=
  (t.splitAt? offset).bind fun (before, _) => before.getLast?

def charAfter? (t : Text) (offset : Nat) : Option Char :=
  (t.splitAt? offset).bind fun (_, after) => after.head?

@[simp] theorem charBefore?_append (before after : Text) :
    (before ++ after).charBefore? before.byteSize = before.getLast? := by
  rw [charBefore?, splitAt?_append, Option.bind_some]

@[simp] theorem charAfter?_append (before after : Text) :
    (before ++ after).charAfter? before.byteSize = after.head? := by
  rw [charAfter?, splitAt?_append, Option.bind_some]

theorem boundary_columnOffset (line : Text) (column : Nat) :
    line.Boundary (line.columnOffset column) :=
  ⟨_, _, (append_cutAtColumn column line).symm, rfl⟩

end Text

theorem any_head?_append_iff {accepts : Char → Bool} {part rest : Text}
    (hpart : ∀ c ∈ part, accepts c = true) (hrest : Stops accepts rest) :
    (part ++ rest).head?.any accepts = true ↔ part ≠ [] := by
  cases part with
  | nil =>
    rw [List.nil_append, hrest]
    simp
  | cons c part => simp [hpart c List.mem_cons_self]

theorem any_getLast?_append_iff {accepts : Char → Bool} {rest part : Text}
    (hpart : ∀ c ∈ part, accepts c = true) (hrest : Stops accepts rest.reverse) :
    (rest ++ part).getLast?.any accepts = true ↔ part ≠ [] := by
  rw [List.getLast?_eq_head?_reverse, List.reverse_append,
    any_head?_append_iff (fun c hc => hpart c (List.mem_reverse.1 hc)) hrest, ne_eq,
    List.reverse_eq_nil_iff]

namespace Run

/-- A run around a byte offset of a line: it is not empty, all its characters are accepted, and it
cannot be made longer. -/
structure Surrounds (run : Run) (accepts : Char → Bool) (line : Text) (cursor : Nat) : Prop where
  start_le : run.start ≤ cursor
  le_stop : cursor ≤ run.stop
  start_lt : run.start < run.stop
  boundaries : line.Boundary run.start ∧ line.Boundary run.stop
  slice : line.slice? run.start run.stop = some run.body
  accepted : ∀ c ∈ run.body, accepts c = true
  opens : (line.charBefore? run.start).any accepts = false
  closes : (line.charAfter? run.stop).any accepts = false

namespace Touches

variable {run : Run} {accepts : Char → Bool} {line : Text} {column : Nat}

theorem exists_halves (h : run.Touches accepts line column) :
    ∃ left right, run.body = left ++ right ∧
      run.before ++ left = (Text.cutAtColumn column line).1 ∧
        right ++ run.after = (Text.cutAtColumn column line).2 := by
  obtain ⟨left, right, hbody, hcut⟩ := h.cut
  exact ⟨left, right, hbody, hcut.unique (cutAt_cutAtColumn column line)⟩

theorem line_eq (h : run.Touches accepts line column) :
    line = run.before ++ (run.body ++ run.after) := by
  obtain ⟨left, right, hbody, hcut⟩ := h.cut
  rw [← hcut.whole, hbody]
  simp

theorem body_ne_nil_iff (h : run.Touches accepts line column) :
    run.body ≠ [] ↔
      (line.charBefore? (line.columnOffset column)).any accepts = true ∨
        (line.charAfter? (line.columnOffset column)).any accepts = true := by
  obtain ⟨left, right, hbody, hbefore, hafter⟩ := h.exists_halves
  have hline := Text.append_cutAtColumn column line
  have haccepted := h.accepted
  rw [← hbefore, ← hafter] at hline
  rw [hbody, List.forall_mem_append] at haccepted
  rw [Text.columnOffset, ← hbefore, ← hline, Text.charBefore?_append, Text.charAfter?_append,
    any_getLast?_append_iff haccepted.1 h.opens, any_head?_append_iff haccepted.2 h.closes, hbody,
    ne_eq, List.append_eq_nil_iff, Classical.not_and_iff_not_or_not]

theorem surrounds (h : run.Touches accepts line column) (hbody : run.body ≠ []) :
    run.Surrounds accepts line (line.columnOffset column) := by
  obtain ⟨left, right, hhalves, hbefore, hafter⟩ := h.exists_halves
  have hline := h.line_eq
  have hstop : run.stop = (run.before ++ run.body).byteSize := (Text.byteSize_append _ _).symm
  have hcursor : line.columnOffset column = run.start + left.byteSize := by
    rw [Text.columnOffset, ← hbefore, Text.byteSize_append, start]
  have hsize : run.stop = run.start + (left.byteSize + right.byteSize) := by
    rw [stop, hhalves, Text.byteSize_append]
  have hpositive : 0 < run.body.byteSize :=
    Nat.lt_of_lt_of_le (List.length_pos_iff.2 hbody) (Text.length_le_byteSize run.body)
  have hslice : line.slice? run.start run.stop = some run.body := by
    rw [hline]
    exact Text.slice?_append _ _ _
  refine ⟨by omega, by omega, by rw [stop]; omega, ⟨⟨_, _, hline, rfl⟩, ?_⟩, hslice, h.accepted,
    ?_, ?_⟩
  · exact ⟨run.before ++ run.body, run.after, by rw [hline, List.append_assoc], hstop⟩
  · rw [hline, start, Text.charBefore?_append, List.getLast?_eq_head?_reverse]
    exact h.opens
  · rw [hline, hstop, ← List.append_assoc, Text.charAfter?_append]
    exact h.closes

/-- A run of a wider class begins no later. -/
theorem exists_before {wider : Char → Bool} {outer : Run} (h : run.Touches accepts line column)
    (houter : outer.Touches wider line column)
    (hwider : ∀ c, accepts c = true → wider c = true) :
    ∃ first, run.before = outer.before ++ first := by
  obtain ⟨left, right, hbody, hbefore, -⟩ := h.exists_halves
  obtain ⟨left', -, -, hbefore', -⟩ := houter.exists_halves
  rcases List.append_eq_append_iff.1 (hbefore.trans hbefore'.symm) with
    ⟨x, hx, hleft⟩ | ⟨x, hx, -⟩
  · -- the wider run would go on with the characters between the two beginnings
    rcases List.eq_nil_or_concat x with rfl | ⟨u, c, rfl⟩
    · exact ⟨[], by rw [hx]; simp⟩
    · have hc : wider c = true := hwider c (h.accepted c (by rw [hbody, hleft]; simp))
      have hstops := houter.opens
      rw [hx, List.concat_eq_append, ← List.append_assoc, List.reverse_append,
        List.reverse_singleton, List.singleton_append, stops_cons, hc] at hstops
      cases hstops
  · exact ⟨x, hx⟩

theorem slice?_from {outer : Run} {first : Text} (h : run.Touches accepts line column)
    (hfirst : run.before = outer.before ++ first) :
    outer.start ≤ run.start ∧ line.slice? outer.start run.stop = some (first ++ run.body) := by
  have hstart : run.start = outer.start + first.byteSize := by
    rw [start, hfirst, Text.byteSize_append, start]
  have hstop : run.stop = outer.before.byteSize + (first ++ run.body).byteSize := by
    rw [stop, hstart, Text.byteSize_append, start, Nat.add_assoc]
  have hline : line = outer.before ++ ((first ++ run.body) ++ run.after) := by
    rw [h.line_eq, hfirst]
    simp
  refine ⟨by omega, ?_⟩
  rw [hline, hstop]
  exact Text.slice?_append _ _ _

end Touches

end Run

/-- A run exists at a column exactly if a character on either side of the cut is accepted. -/
theorem isSome_runAt_iff (accepts : Char → Bool) (line : Text) (column : Nat) :
    (runAt accepts line column).isSome = true ↔
      (line.charBefore? (line.columnOffset column)).any accepts = true ∨
        (line.charAfter? (line.columnOffset column)).any accepts = true := by
  obtain ⟨run, htouches, hrun⟩ := exists_touches accepts line column
  rw [← htouches.body_ne_nil_iff, hrun]
  split <;> simp_all

theorem isSome_runAt_of_wider {accepts wider : Char → Bool} {line : Text} {column : Nat}
    (hwider : ∀ c, accepts c = true → wider c = true)
    (h : (runAt accepts line column).isSome = true) :
    (runAt wider line column).isSome = true := by
  have hany : ∀ found : Option Char, found.any accepts = true → found.any wider = true := by
    intro found hfound
    cases found with
    | none => cases hfound
    | some c => exact hwider c hfound
  rw [isSome_runAt_iff] at h ⊢
  exact h.imp (hany _) (hany _)

theorem touches_of_runAt {accepts : Char → Bool} {line : Text} {column : Nat} {run : Run}
    (h : runAt accepts line column = some run) :
    run.Touches accepts line column ∧ run.body ≠ [] := by
  obtain ⟨found, htouches, hrun⟩ := exists_touches accepts line column
  rw [h] at hrun
  split at hrun
  next => cases hrun
  next hbody =>
    cases hrun
    exact ⟨htouches, hbody⟩

example : runAt (· ≠ '"') "a\"b😀c\"".toList 4 =
    some ⟨"a\"".toList, "b😀c".toList, "\"".toList⟩ := by
  decide

end ScriptLens
