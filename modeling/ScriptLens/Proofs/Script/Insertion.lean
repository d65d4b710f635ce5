import ScriptLens.Proofs.Markup.Hole
import ScriptLens.Proofs.Script.TreeRenaming

/-!
The variables of a document before and after a place in it. Something that is written at the place
moves the ones after it by its length (`TreeHole.moved_eq`).
-/

namespace ScriptLens

open Markup Occurrence

/-! Parts, and how their variables move. -/

def Occurrence.moved (n : Nat) (o : Occurrence) : Occurrence :=
  { o with start := o.start + n, stop := o.stop + n }

def Occurrence.movedFrom (place n : Nat) (o : Occurrence) : Occurrence :=
  if place ≤ o.start then o.moved n else o

theorem occurrencesIn_add (offset n : Nat) (pieces : List Piece) :
    occurrencesIn (offset + n) pieces = (occurrencesIn offset pieces).map (Occurrence.moved n) := by
  induction pieces generalizing offset with
  | nil => rfl
  | cons p rest ih =>
    rw [occurrencesIn, occurrencesIn, List.map_append, ← ih, Nat.add_right_comm]
    congr 1
    cases p <;> simp [Piece.occurrence?, Occurrence.moved] <;> omega

theorem within_of_mem_occurrencesIn {offset : Nat} {pieces : List Piece} {o : Occurrence}
    (h : o ∈ occurrencesIn offset pieces) :
    offset ≤ o.start ∧ o.start < offset + (spell pieces).byteSize ∧
      o.stop ≤ offset + (spell pieces).byteSize := by
  induction pieces generalizing offset with
  | nil => simp [occurrencesIn] at h
  | cons p rest ih =>
    rw [spell_cons, Text.byteSize_append]
    rcases List.mem_append.1 h with h | h
    · cases p with
      | other t => simp [Piece.occurrence?] at h
      | declared quote value =>
        have hquote := quote.utf8Size_pos
        obtain rfl : o = ⟨.plain, value, offset + quote.utf8Size,
            offset + quote.utf8Size + value.byteSize⟩ := by
          simpa [Piece.occurrence?] using h
        simp only [Piece.text, Text.byteSize_cons, Text.byteSize_append, Text.byteSize_nil]
        omega
      | reference previous kind name =>
        have hdollar : '$'.utf8Size = 1 := rfl
        obtain rfl : o = ⟨kind, name, offset + previous.utf8Size,
            offset + previous.utf8Size + 1 + name.byteSize⟩ := by
          simpa [Piece.occurrence?] using h
        simp only [Piece.text, Text.byteSize_cons, hdollar]
        omega
    · have hrest := ih h
      omega

namespace Part

def InPieces (p : Part) : Prop :=
  ∃ pieces, p = ofPieces pieces

@[simp] theorem text_bare (t : Text) : (bare t).text = t := rfl

@[simp] theorem found_bare (t : Text) (offset : Nat) : (bare t).found offset = [] := rfl

@[simp] theorem text_append (p q : Part) : (p.append q).text = p.text ++ q.text := rfl

@[simp] theorem found_append (p q : Part) (offset : Nat) :
    (p.append q).found offset = p.found offset ++ q.found (offset + p.text.byteSize) := rfl

theorem append_assoc (p q r : Part) : (p.append q).append r = p.append (q.append r) := by
  ext1
  · simp
  · funext offset
    simp [Nat.add_assoc]

theorem bare_nil_append (p : Part) : (bare []).append p = p := by
  ext1
  · simp
  · funext offset
    simp

variable {p q : Part}

theorem inPieces_bare (t : Text) : InPieces (bare t) :=
  ⟨[.other t], by simp [bare, ofPieces, occurrencesIn, Piece.occurrence?, Piece.text]⟩

theorem InPieces.append (hp : p.InPieces) (hq : q.InPieces) : (p.append q).InPieces := by
  obtain ⟨pieces, rfl⟩ := hp
  obtain ⟨more, rfl⟩ := hq
  exact ⟨pieces ++ more, (ofPieces_append pieces more).symm⟩

theorem Renamed.inPieces {r : Renaming} (h : Renamed r p q) : p.InPieces := by
  obtain ⟨pieces, -, hp, -⟩ := h
  exact ⟨pieces, hp⟩

theorem InPieces.found_add (h : p.InPieces) (offset n : Nat) :
    p.found (offset + n) = (p.found offset).map (Occurrence.moved n) := by
  obtain ⟨pieces, rfl⟩ := h
  exact occurrencesIn_add offset n pieces

theorem InPieces.within_of_mem (h : p.InPieces) {offset : Nat} {o : Occurrence}
    (ho : o ∈ p.found offset) :
    offset ≤ o.start ∧ o.start < offset + p.text.byteSize ∧
      o.stop ≤ offset + p.text.byteSize := by
  obtain ⟨pieces, rfl⟩ := h
  exact within_of_mem_occurrencesIn ho

theorem InPieces.found_insertion (hp : p.InPieces) (hq : q.InPieces) (n : Nat) :
    p.found 0 ++ q.found (p.text.byteSize + n) =
      ((p.append q).found 0).map (Occurrence.movedFrom p.text.byteSize n) := by
  have hfirst : (p.found 0).map (Occurrence.movedFrom p.text.byteSize n) = p.found 0 := by
    refine (List.map_congr_left fun o ho => ?_).trans (List.map_id _)
    have hstart := (hp.within_of_mem ho).2.1
    exact if_neg (by omega)
  have hsecond : (q.found p.text.byteSize).map (Occurrence.movedFrom p.text.byteSize n) =
      (q.found p.text.byteSize).map (Occurrence.moved n) := by
    refine List.map_congr_left fun o ho => ?_
    have hstart := (hq.within_of_mem ho).1
    exact if_pos hstart
  rw [found_append, Nat.zero_add, List.map_append, hfirst, hsecond, hq.found_add]

end Part

section Cut

variable (parent : Text)

instance : Inhabited Renaming :=
  ⟨⟨.plain, [], ['a'], ⟨rfl, rfl⟩, rfl, rfl⟩⟩

theorem inPieces_tag (parent : Option Text) (isEmpty : Bool) (tag : StartTag) :
    (tagPart parent isEmpty tag).InPieces := by
  obtain ⟨_, _, htag⟩ := exists_renamed_tag default parent isEmpty tag
  exact htag.inPieces

theorem inPieces_leaf (l : Leaf) : (leafPart parent l).InPieces := by
  obtain ⟨_, hleaf⟩ := exists_renamed_leaf default parent l
  exact hleaf.inPieces

theorem inPieces_content (c : Content) : (contentPart parent c).InPieces := by
  obtain ⟨_, hcontent⟩ := exists_renamed_content default parent c
  exact hcontent.inPieces

end Cut

/-! The parts before and after a place. -/

namespace Markup

theorem contentPart_withFirst (parent : Text) {first cut : CharData} {c : Content}
    (h : first.text = cut.text ++ c.first.text) :
    contentPart parent (c.withFirst first) =
      (Part.bare cut.text).append (contentPart parent c) := by
  ext1
  · simp [contentPart, Content.render_withFirst, h, c.render_eq_first]
  · funext offset
    cases c <;>
      simp_all [contentPart, Content.withFirst, Content.first, Content.tags, Nat.add_assoc]

namespace Hole

def beforePart (parent : Text) : Hole → Part
  | .here cut _ _ _ => .bare cut.text
  | .leaf t l rest =>
    (Part.bare t.text).append ((leafPart parent l).append (rest.beforePart parent))
  | .inside t tag inner _ _ =>
    (Part.bare t.text).append ((tagPart (some parent) false tag).append
      (inner.beforePart tag.name.text))
  | .element t tag inner space rest =>
    (Part.bare t.text).append ((tagPart (some parent) false tag).append
      ((contentPart tag.name.text inner).append
        ((Part.bare (tag.closing space)).append (rest.beforePart parent))))

def afterPart (parent : Text) : Hole → Part
  | .here _ _ after _ => contentPart parent after
  | .leaf _ _ rest => rest.afterPart parent
  | .inside _ tag inner space rest =>
    (inner.afterPart tag.name.text).append
      ((Part.bare (tag.closing space)).append (contentPart parent rest))
  | .element _ _ _ _ rest => rest.afterPart parent

def withinPart (parent : Text) : Hole → Part
  | .here _ _ _ _ => .bare []
  | .leaf _ _ rest => rest.withinPart parent
  | .inside _ tag inner space _ =>
    (inner.afterPart tag.name.text).append (.bare (tag.closing space))
  | .element _ _ _ _ rest => rest.withinPart parent

variable (parent : Text)

theorem beforePart_text (h : Hole) : (h.beforePart parent).text = h.before := by
  induction h generalizing parent with
  | here cut whole after joined => rfl
  | leaf t l rest ih => simp [beforePart, before, ih, leafPart]
  | inside t tag inner space rest ih => simp [beforePart, before, ih, tagPart]
  | element t tag inner space rest ih => simp [beforePart, before, ih, tagPart, contentPart]

theorem afterPart_text (h : Hole) : (h.afterPart parent).text = h.after := by
  induction h generalizing parent with
  | here cut whole after joined => rfl
  | leaf t l rest ih => exact ih parent
  | inside t tag inner space rest ih => simp [afterPart, after, ih, contentPart]
  | element t tag inner space rest ih => exact ih parent

theorem withinPart_text (h : Hole) : (h.withinPart parent).text = h.within := by
  induction h generalizing parent with
  | here cut whole after joined => rfl
  | leaf t l rest ih => exact ih parent
  | inside t tag inner space rest ih => simp [withinPart, within, afterPart_text]
  | element t tag inner space rest ih => exact ih parent

theorem contentPart_content (h : Hole) :
    contentPart parent h.content = (h.beforePart parent).append (h.afterPart parent) := by
  induction h generalizing parent with
  | here cut whole after joined => exact contentPart_withFirst parent joined
  | leaf t l rest ih =>
    simp only [content, contentPart_leaf, ih, beforePart, afterPart, Part.append_assoc]
  | inside t tag inner space rest ih =>
    simp only [content, contentPart_element, ih, beforePart, afterPart, Part.append_assoc]
  | element t tag inner space rest ih =>
    simp only [content, contentPart_element, ih, beforePart, afterPart, Part.append_assoc]

theorem afterPart_eq (h : Hole) :
    h.afterPart parent = (h.withinPart parent).append (contentPart parent h.remaining) := by
  induction h generalizing parent with
  | here cut whole after joined => exact (Part.bare_nil_append _).symm
  | leaf t l rest ih => exact ih parent
  | inside t tag inner space rest ih => exact (Part.append_assoc _ _ _).symm
  | element t tag inner space rest ih => exact ih parent

theorem inPieces_before (h : Hole) : (h.beforePart parent).InPieces := by
  induction h generalizing parent with
  | here cut whole after joined => exact Part.inPieces_bare _
  | leaf t l rest ih =>
    exact (Part.inPieces_bare _).append ((inPieces_leaf parent l).append (ih parent))
  | inside t tag inner space rest ih =>
    exact (Part.inPieces_bare _).append ((inPieces_tag _ _ tag).append (ih _))
  | element t tag inner space rest ih =>
    exact (Part.inPieces_bare _).append ((inPieces_tag _ _ tag).append
      ((inPieces_content _ inner).append ((Part.inPieces_bare _).append (ih parent))))

theorem inPieces_after (h : Hole) : (h.afterPart parent).InPieces := by
  induction h generalizing parent with
  | here cut whole after joined => exact inPieces_content parent after
  | leaf t l rest ih => exact ih parent
  | inside t tag inner space rest ih =>
    exact (ih _).append ((Part.inPieces_bare _).append (inPieces_content parent rest))
  | element t tag inner space rest ih => exact ih parent

theorem inPieces_within (h : Hole) : (h.withinPart parent).InPieces := by
  induction h with
  | here cut whole after joined => exact Part.inPieces_bare _
  | leaf t l rest ih => exact ih
  | inside t tag inner space rest ih =>
    exact (inner.inPieces_after _).append (Part.inPieces_bare _)
  | element t tag inner space rest ih => exact ih

end Hole

end Markup

namespace Markup.TreeHole

variable (d : TreeHole)

def beforePart : Part :=
  (Part.bare d.prolog.render).append
    ((tagPart none false d.root).append (d.hole.beforePart d.root.name.text))

def afterPart : Part :=
  (d.hole.afterPart d.root.name.text).append
    ((Part.bare (d.root.closing d.space)).append (.bare d.tail.text))

theorem beforePart_text : d.beforePart.text = d.before := by
  simp [beforePart, before, tagPart, Hole.beforePart_text]

theorem inPieces_before : d.beforePart.InPieces :=
  (Part.inPieces_bare _).append ((inPieces_tag _ _ _).append (d.hole.inPieces_before _))

theorem inPieces_after : d.afterPart.InPieces :=
  (d.hole.inPieces_after _).append ((Part.inPieces_bare _).append (Part.inPieces_bare _))

theorem ofDocument_tree :
    ofDocument d.tree.render = (d.beforePart.append d.afterPart).found 0 := by
  rw [← treePart_found]
  simp only [treePart, tree, elementPart_paired, Hole.contentPart_content, beforePart, afterPart,
    Part.append_assoc]

def moved (text : Text) : List Occurrence :=
  (ofDocument d.tree.render).map (Occurrence.movedFrom d.before.byteSize text.byteSize)

theorem moved_eq (text : Text) :
    d.moved text =
      d.beforePart.found 0 ++ d.afterPart.found (d.before.byteSize + text.byteSize) := by
  rw [moved, ofDocument_tree, ← beforePart_text]
  exact (d.inPieces_before.found_insertion d.inPieces_after text.byteSize).symm

end Markup.TreeHole

end ScriptLens
