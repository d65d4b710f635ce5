import ScriptLens.Proofs.Document.Position
import ScriptLens.Session.Query

/-!
What an editor makes of edits: all ranges are read in the text as it was, and the parts that they
cover are replaced together. `edited?_edits` is the case of edits that were made from a text cut
into parts to keep and parts to replace.
-/

namespace ScriptLens

structure Change where
  start : Nat
  stop : Nat
  newText : Text
  deriving DecidableEq, Repr

/-- Replaces parts of a text of which the first `offset` bytes are gone. Parts that overlap, lie
outside or cut a character cannot be replaced. -/
def Text.splice (offset : Nat) : List Change → Text → Option Text
  | [], t => some t
  | change :: rest, t =>
    if offset ≤ change.start ∧ change.start ≤ change.stop then
      (splitAt? (change.start - offset) t).bind fun (before, t) =>
        (splitAt? (change.stop - change.start) t).bind fun (_, t) =>
          (splice change.stop rest t).map fun after => before ++ (change.newText ++ after)
    else none

namespace Document

def change? (d : Document) (e : TextEdit) : Option Change :=
  (d.offset? e.range.start).bind fun start =>
    (d.offset? e.range.stop).map fun stop => ⟨start, stop, e.newText⟩

def edited? (d : Document) (edits : List TextEdit) : Option Text :=
  (edits.mapM d.change?).bind fun changes =>
    Text.splice 0 (changes.mergeSort fun a b => a.start ≤ b.start) d.text

end Document

inductive Segment where
  | kept (t : Text)
  | replaced (old new : Text)

namespace Segment

def old : Segment → Text
  | .kept t => t
  | .replaced old _ => old

def new : Segment → Text
  | .kept t => t
  | .replaced _ new => new

def edits : (before : Text) → List Segment → List TextEdit
  | _, [] => []
  | before, .kept t :: rest => edits (before ++ t) rest
  | before, .replaced old new :: rest =>
    ⟨⟨Position.zero.after before, Position.zero.after (before ++ old)⟩, new⟩ ::
      edits (before ++ old) rest

def changes : (before : Text) → List Segment → List Change
  | _, [] => []
  | before, .kept t :: rest => changes (before ++ t) rest
  | before, .replaced old new :: rest =>
    ⟨before.byteSize, (before ++ old).byteSize, new⟩ :: changes (before ++ old) rest

/-- No part to replace begins or ends inside a line break. -/
def Placeable : (before : Text) → List Segment → Prop
  | _, [] => True
  | before, .kept t :: rest => Placeable (before ++ t) rest
  | before, .replaced old _ :: rest =>
    Parted before (old ++ rest.flatMap Segment.old) ∧
      Parted (before ++ old) (rest.flatMap Segment.old) ∧ Placeable (before ++ old) rest

theorem splice_changes (gone before : Text) (segments : List Segment) :
    Text.splice gone.byteSize (changes (gone ++ before) segments)
        (before ++ segments.flatMap Segment.old) =
      some (before ++ segments.flatMap Segment.new) := by
  induction segments generalizing gone before with
  | nil => rfl
  | cons segment rest ih =>
    cases segment with
    | kept t =>
      have hrest := ih gone (before ++ t)
      simpa [changes, old, new] using hrest
    | replaced old new =>
      have hrest := ih (gone ++ before ++ old) []
      have hbefore : gone.byteSize ≤ (gone ++ before).byteSize ∧
          (gone ++ before).byteSize ≤ (gone ++ before ++ old).byteSize := by
        simp only [Text.byteSize_append]
        omega
      have hstart : (gone ++ before).byteSize - gone.byteSize = before.byteSize := by
        simp only [Text.byteSize_append]
        omega
      have hstop : (gone ++ before ++ old).byteSize - (gone ++ before).byteSize =
          old.byteSize := by
        simp only [Text.byteSize_append]
        omega
      simp only [List.append_nil, List.nil_append] at hrest
      rw [changes, Text.splice]
      simp only [if_pos hbefore, hstart, hstop, List.flatMap_cons, Segment.old, Segment.new,
        Text.splitAt?_append, Option.bind_some, hrest, Option.map_some]

theorem le_start_of_mem_changes {before : Text} {segments : List Segment} {change : Change}
    (h : change ∈ changes before segments) : before.byteSize ≤ change.start := by
  induction segments generalizing before with
  | nil => simp [changes] at h
  | cons segment rest ih =>
    cases segment with
    | kept t =>
      have hrest := ih h
      simp only [Text.byteSize_append] at hrest
      omega
    | replaced old new =>
      rcases List.mem_cons.1 h with rfl | h
      · exact Nat.le_refl _
      · have hrest := ih h
        simp only [Text.byteSize_append] at hrest
        omega

theorem pairwise_changes (before : Text) (segments : List Segment) :
    (changes before segments).Pairwise fun a b => (decide (a.start ≤ b.start)) = true := by
  induction segments generalizing before with
  | nil => exact .nil
  | cons segment rest ih =>
    cases segment with
    | kept t => exact ih (before ++ t)
    | replaced old new =>
      refine .cons (fun change h => ?_) (ih (before ++ old))
      have hstart := le_start_of_mem_changes h
      simp only [Text.byteSize_append] at hstart
      simp only [decide_eq_true_iff]
      omega

theorem mapM_change? {d : Document} (before : Text) (segments : List Segment)
    (h : d.text = before ++ segments.flatMap Segment.old) (hplaceable : Placeable before segments) :
    (edits before segments).mapM d.change? = some (changes before segments) := by
  induction segments generalizing before with
  | nil => rfl
  | cons segment rest ih =>
    cases segment with
    | kept t => exact ih (before ++ t) (by simpa [old] using h) hplaceable
    | replaced old new =>
      obtain ⟨hstart, hstop, hrest⟩ := hplaceable
      have htext : d.text = (before ++ old) ++ rest.flatMap Segment.old := by
        simpa [Segment.old] using h
      have hchange : d.change? ⟨⟨Position.zero.after before, Position.zero.after (before ++ old)⟩,
          new⟩ = some ⟨before.byteSize, (before ++ old).byteSize, new⟩ := by
        rw [Document.change?, Document.offset?_after (by simpa using htext) hstart,
          Document.offset?_after htext hstop]
        rfl
      rw [edits, List.mapM_cons, hchange, ih _ htext hrest]
      rfl

end Segment

/-- Edits made from the parts of a text turn it into the text of the new parts. -/
theorem Document.edited?_edits {d : Document} {segments : List Segment}
    (h : d.text = segments.flatMap Segment.old) (hplaceable : Segment.Placeable [] segments) :
    d.edited? (Segment.edits [] segments) = some (segments.flatMap Segment.new) := by
  have hsplice := Segment.splice_changes [] [] segments
  rw [edited?, Segment.mapM_change? [] segments h hplaceable, Option.bind_some,
    List.mergeSort_of_pairwise (Segment.pairwise_changes [] segments), h]
  simpa using hsplice

end ScriptLens
