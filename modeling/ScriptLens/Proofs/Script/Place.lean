import ScriptLens.Proofs.Document.Editing
import ScriptLens.Proofs.Script.Renaming

/-!
The places of the variables in a document that is cut into pieces: each is given by the text before
it, so the places of a document and of the document with new names can be told from one another. The
edits that rename a variable are made at its places, and they lead to the renamed pieces.
-/

namespace ScriptLens

open Occurrence

/-- A variable, the text before it, and its own text with the sigil. -/
structure Place where
  kind : VariableKind
  name : Text
  before : Text
  written : Text

namespace Place

def occurrence (p : Place) : Occurrence :=
  ⟨p.kind, p.name, p.before.byteSize, (p.before ++ p.written).byteSize⟩

def range (p : Place) : Range :=
  ⟨Position.zero.after p.before, Position.zero.after (p.before ++ p.written)⟩

def key (p : Place) : VariableKind × Text :=
  (p.kind, bareName p.name)

def Before (p q : Place) : Prop :=
  ∃ x ≠ [], q.before = p.before ++ (p.written ++ x)

end Place

def Piece.place? (before : Text) : Piece → Option Place
  | .other _ => none
  | .declared quote value => some ⟨.plain, value, before ++ [quote], value⟩
  | .reference previous kind name => some ⟨kind, name, before ++ [previous], '$' :: name⟩

def places (before : Text) : List Piece → List Place
  | [] => []
  | p :: rest => (p.place? before).toList ++ places (before ++ p.text) rest

theorem occurrencesIn_eq (before : Text) (pieces : List Piece) :
    occurrencesIn before.byteSize pieces = (places before pieces).map Place.occurrence := by
  induction pieces generalizing before with
  | nil => rfl
  | cons p rest ih =>
    have hrest := ih (before ++ p.text)
    have hsize : '$'.utf8Size = 1 := rfl
    rw [Text.byteSize_append] at hrest
    rw [occurrencesIn, hrest, places, List.map_append]
    cases p <;> simp [Piece.occurrence?, Piece.place?, Place.occurrence, hsize, Nat.add_assoc]

theorem exists_before_of_mem_places {before : Text} {pieces : List Piece} {p : Place}
    (h : p ∈ places before pieces) : ∃ x ≠ [], p.before = before ++ x := by
  induction pieces generalizing before with
  | nil => simp [places] at h
  | cons q rest ih =>
    rcases List.mem_append.1 h with h | h
    · cases q with
      | other t => simp [Piece.place?] at h
      | declared quote value =>
        obtain rfl : p = ⟨.plain, value, before ++ [quote], value⟩ := by
          simpa [Piece.place?] using h
        exact ⟨[quote], by simp, rfl⟩
      | reference previous kind name =>
        obtain rfl : p = ⟨kind, name, before ++ [previous], '$' :: name⟩ := by
          simpa [Piece.place?] using h
        exact ⟨[previous], by simp, rfl⟩
    · obtain ⟨x, hx, hbefore⟩ := ih h
      exact ⟨q.text ++ x, by simp [hx], by simp [hbefore]⟩

theorem pairwise_places (before : Text) (pieces : List Piece) :
    (places before pieces).Pairwise Place.Before := by
  induction pieces generalizing before with
  | nil => exact .nil
  | cons q rest ih =>
    have hrest := ih (before ++ q.text)
    cases q with
    | other t => exact hrest
    | declared quote value =>
      refine .cons (fun p hp => ?_) hrest
      obtain ⟨x, -, hbefore⟩ := exists_before_of_mem_places hp
      exact ⟨quote :: x, by simp, by simp [hbefore, Piece.text]⟩
    | reference previous kind name =>
      refine .cons (fun p hp => ?_) hrest
      obtain ⟨x, hx, hbefore⟩ := exists_before_of_mem_places hp
      exact ⟨x, hx, by simp [hbefore, Piece.text]⟩

/-! What is at a place. -/

/-- No position is lost at the ends of a place, whatever follows it. -/
def Place.Parted (p : Place) (after : Text) : Prop :=
  ScriptLens.Parted p.before (p.written ++ after) ∧
    ScriptLens.Parted (p.before ++ p.written) after

/-- A place in a text, from whose two ends a position leads back. -/
structure Place.StandsIn (p : Place) (text : Text) : Prop where
  exists_after : ∃ after, text = p.before ++ (p.written ++ after) ∧ p.Parted after

theorem parted_declared (before after : Text) {quote : Char} (value : Text)
    (h : Markup.isQuote quote = true) :
    Place.Parted ⟨.plain, value, before ++ [quote], value⟩ (quote :: after) := by
  have hne : quote ≠ '\r' ∧ quote ≠ '\n' := by
    rcases Markup.isQuote_iff.1 h with rfl | rfl <;> decide
  exact ⟨parted_concat hne.1, parted_cons hne.2⟩

theorem parted_reference (before after : Text) (kind : VariableKind) {name : Text}
    (h : IsIdentifier name) : Place.Parted ⟨kind, name, before, '$' :: name⟩ after := by
  have hne := ne_nil_of_isIdentifier h
  have hpart := isIdentifierPart_getLast h '$'
  constructor
  · exact parted_cons (by decide)
  · intro hreturn _
    have hlast : (before ++ '$' :: name).getLast? = name.getLast? := by
      simp [List.getLast?_append, List.getLast?_cons, List.getLast?_eq_some_getLast hne]
    rw [hlast] at hreturn
    rw [hreturn, Option.getD_some] at hpart
    exact absurd hpart (by decide)

theorem standsIn_of_mem_places {before : Text} {pieces : List Piece}
    (hvalid : ∀ q ∈ pieces, q.Valid) {p : Place} (h : p ∈ places before pieces) :
    p.StandsIn (before ++ spell pieces) := by
  induction pieces generalizing before with
  | nil => simp [places] at h
  | cons q rest ih =>
    have hq := hvalid q List.mem_cons_self
    rcases List.mem_append.1 h with h | h
    · cases q with
      | other t => simp [Piece.place?] at h
      | declared quote value =>
        obtain rfl : p = ⟨.plain, value, before ++ [quote], value⟩ := by
          simpa [Piece.place?] using h
        exact ⟨quote :: spell rest, by simp [Piece.text],
          parted_declared before (spell rest) value hq⟩
      | reference previous kind name =>
        obtain rfl : p = ⟨kind, name, before ++ [previous], '$' :: name⟩ := by
          simpa [Piece.place?] using h
        exact ⟨spell rest, by simp [Piece.text], parted_reference _ (spell rest) kind hq⟩
    · have hrest := ih (fun q hq => hvalid q (List.mem_cons_of_mem _ hq)) h
      simpa using hrest

namespace Place

variable {d : Document} {p : Place}

theorem StandsIn.slice? (h : p.StandsIn d.text) : d.slice? p.range = some p.written := by
  obtain ⟨after, htext, hstart, hstop⟩ := h
  exact Document.slice?_after htext hstart hstop

theorem StandsIn.rangeOf (h : p.StandsIn d.text) :
    d.rangeOf p.occurrence.start p.occurrence.stop = p.range := by
  obtain ⟨after, htext, -, -⟩ := h
  exact Document.rangeOf_append htext

theorem Before.apart {q : Place} (h : p.Before q) : p.range.Apart q.range := by
  obtain ⟨x, hx, hbefore⟩ := h
  refine Range.apart_of_precedes ?_
  have hmore := Position.precedes_after (Position.zero.after (p.before ++ p.written)) hx
  rw [← Position.after_append, List.append_assoc, ← hbefore] at hmore
  exact hmore

theorem Before.range_ne {q : Place} (h : p.Before q) : p.range ≠ q.range := by
  intro heq
  have hp : p.range.contains p.range.start = true := by
    have hstart := Position.le_after p.range.start []
    have hstop := Position.le_after p.range.start p.written
    rw [range, ← Position.after_append] at hstop
    rw [Range.contains, Bool.and_eq_true]
    exact ⟨hstart, hstop⟩
  exact h.apart p.range.start ⟨hp, heq ▸ hp⟩

end Place

/-! The edits at the places of a variable. -/

namespace Piece

def segments (r : Renaming) : Piece → List Segment
  | .other t => [.kept t]
  | .declared quote value =>
    [.kept [quote], if r.Concerns .plain value then .replaced value (r.written value) else .kept value,
      .kept [quote]]
  | .reference previous kind name =>
    [.kept [previous], if r.Concerns kind name then .replaced ('$' :: name) ('$' :: r.new)
      else .kept ('$' :: name)]

theorem old_segments (r : Renaming) (p : Piece) : (p.segments r).flatMap Segment.old = p.text := by
  cases p with
  | other t => simp [segments, Segment.old, text]
  | declared quote value =>
    by_cases h : r.Concerns .plain value <;> simp [segments, Segment.old, text, h]
  | reference previous kind name =>
    by_cases h : r.Concerns kind name <;> simp [segments, Segment.old, text, h]

theorem new_segments (r : Renaming) (p : Piece) :
    (p.segments r).flatMap Segment.new = (p.renamed r).text := by
  cases p with
  | other t => simp [segments, Segment.new, text, renamed]
  | declared quote value =>
    by_cases h : r.Concerns .plain value <;> simp [segments, Segment.new, text, renamed, h]
  | reference previous kind name =>
    by_cases h : r.Concerns kind name <;> simp [segments, Segment.new, text, renamed, h]

end Piece

section Edits

variable (r : Renaming)

theorem old_flatMap_segments (pieces : List Piece) :
    (pieces.flatMap (Piece.segments r)).flatMap Segment.old = spell pieces := by
  rw [List.flatMap_assoc, spell]
  congr
  funext p
  exact p.old_segments r

theorem new_flatMap_segments (pieces : List Piece) :
    (pieces.flatMap (Piece.segments r)).flatMap Segment.new =
      spell (pieces.map (Piece.renamed r)) := by
  rw [List.flatMap_assoc, spell, List.flatMap_map]
  congr
  funext p
  exact p.new_segments r

theorem edits_segments (before : Text) (pieces : List Piece) :
    Segment.edits before (pieces.flatMap (Piece.segments r)) =
      ((places before pieces).filter fun p => r.Concerns p.kind p.name).map fun p =>
        ⟨p.range, r.written p.written⟩ := by
  induction pieces generalizing before with
  | nil => rfl
  | cons q rest ih =>
    have hrest := ih (before ++ q.text)
    cases q with
    | other t => exact hrest
    | declared quote value =>
      by_cases h : r.Concerns .plain value
      · simpa [places, Piece.place?, Piece.segments, Segment.edits, h, Place.range, Piece.text]
          using hrest
      · simpa [places, Piece.place?, Piece.segments, Segment.edits, h, Piece.text] using hrest
    | reference previous kind name =>
      by_cases h : r.Concerns kind name
      · simpa [places, Piece.place?, Piece.segments, Segment.edits, h, Place.range, Piece.text,
          Renaming.written] using hrest
      · simpa [places, Piece.place?, Piece.segments, Segment.edits, h, Piece.text] using hrest

theorem placeable_segments (before : Text) {pieces : List Piece}
    (hvalid : ∀ q ∈ pieces, q.Valid) :
    Segment.Placeable before (pieces.flatMap (Piece.segments r)) := by
  induction pieces generalizing before with
  | nil => trivial
  | cons q rest ih =>
    have hq := hvalid q List.mem_cons_self
    have hrest := ih (before ++ q.text) fun q hq => hvalid q (List.mem_cons_of_mem _ hq)
    cases q with
    | other t => exact hrest
    | declared quote value =>
      by_cases h : r.Concerns .plain value
      · obtain ⟨hstart, hstop⟩ := parted_declared before (spell rest) value hq
        simp only [List.append_assoc, List.cons_append, List.nil_append] at hstart hstop
        simpa [Piece.segments, h, Segment.Placeable, old_flatMap_segments, Segment.old, Piece.text]
          using ⟨hstart, hstop, hrest⟩
      · simpa [Piece.segments, h, Segment.Placeable, Piece.text] using hrest
    | reference previous kind name =>
      by_cases h : r.Concerns kind name
      · obtain ⟨hstart, hstop⟩ := parted_reference (before ++ [previous]) (spell rest) kind hq
        simp only [List.append_assoc, List.cons_append, List.nil_append] at hstart hstop
        simpa [Piece.segments, h, Segment.Placeable, old_flatMap_segments, Piece.text]
          using ⟨hstart, hstop, hrest⟩
      · simpa [Piece.segments, h, Segment.Placeable, Piece.text] using hrest

theorem edited?_places {d : Document} {pieces : List Piece} (hvalid : ∀ q ∈ pieces, q.Valid)
    (htext : d.text = spell pieces) :
    d.edited? (((places [] pieces).filter fun p => r.Concerns p.kind p.name).map fun p =>
        ⟨p.range, r.written p.written⟩) =
      some (spell (pieces.map (Piece.renamed r))) := by
  rw [← edits_segments, Document.edited?_edits (by rw [htext, old_flatMap_segments])
    (placeable_segments r [] hvalid), new_flatMap_segments]

/-! The names at the places. -/

def Renaming.key (k : VariableKind × Text) : VariableKind × Text :=
  if k = (r.kind, r.old) then (r.kind, r.new) else k

theorem Renaming.key_of_concerns {kind : VariableKind} {name : Text} (h : r.Concerns kind name) :
    r.key (kind, bareName name) = (kind, r.new) := by
  obtain ⟨rfl, hname⟩ := h
  rw [key, if_pos (by rw [hname])]

theorem Renaming.key_of_not_concerns {kind : VariableKind} {name : Text}
    (h : ¬r.Concerns kind name) : r.key (kind, bareName name) = (kind, bareName name) := by
  rw [key, if_neg fun hkey => h (Prod.mk.inj hkey)]

theorem Renaming.bareName_written (t : Text) : bareName (r.written t) = r.new := by
  unfold written
  split
  · rfl
  · exact bareName_of_isIdentifier r.identifier

theorem key_places_renamed (before before' : Text) (pieces : List Piece) :
    (places before' (pieces.map (Piece.renamed r))).map Place.key =
      ((places before pieces).map Place.key).map r.key := by
  induction pieces generalizing before before' with
  | nil => rfl
  | cons q rest ih =>
    have hrest := ih (before ++ q.text) (before' ++ (q.renamed r).text)
    rw [List.map_cons, places, places, List.map_append, List.map_append, List.map_append, hrest]
    congr 1
    cases q with
    | other t => rfl
    | declared quote value =>
      by_cases h : r.Concerns .plain value
      · simp [Piece.renamed, Piece.place?, Place.key, h, r.key_of_concerns h, r.bareName_written]
      · simp [Piece.renamed, Piece.place?, Place.key, h, r.key_of_not_concerns h]
    | reference previous kind name =>
      by_cases h : r.Concerns kind name
      · simp [Piece.renamed, Piece.place?, Place.key, h, r.key_of_concerns h,
          bareName_of_isIdentifier r.identifier]
      · simp [Piece.renamed, Piece.place?, Place.key, h, r.key_of_not_concerns h]

end Edits

end ScriptLens
