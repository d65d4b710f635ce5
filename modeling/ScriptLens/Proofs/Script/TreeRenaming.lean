import ScriptLens.Proofs.Script.Renaming
import ScriptLens.Proofs.Script.TreeVariables

/-!
Renaming a variable in a written tree. Each construct is cut into pieces, and the same construct
with new names in its values is written as the renamed pieces; `exists_renamed_tree` puts the
constructs together.
-/

namespace ScriptLens

open Markup Occurrence

/-- A part of a document: its text, and the variables in it if it stands at an offset. -/
@[ext] structure Part where
  text : Text
  found : Nat → List Occurrence

namespace Part

def bare (t : Text) : Part := ⟨t, fun _ => []⟩

def append (p q : Part) : Part where
  text := p.text ++ q.text
  found offset := p.found offset ++ q.found (offset + p.text.byteSize)

def ofPieces (pieces : List Piece) : Part where
  text := spell pieces
  found offset := occurrencesIn offset pieces

theorem ofPieces_append (pieces more : List Piece) :
    ofPieces (pieces ++ more) = (ofPieces pieces).append (ofPieces more) := by
  ext1
  · simp [ofPieces, append]
  · funext offset
    simp [ofPieces, append, occurrencesIn_append]

def Renamed (r : Renaming) (p p' : Part) : Prop :=
  ∃ pieces : List Piece, (∀ q ∈ pieces, q.Valid) ∧ p = ofPieces pieces ∧
    p' = ofPieces (pieces.map (Piece.renamed r))

variable {r : Renaming} {p p' q q' : Part}

theorem renamed_bare (r : Renaming) (t : Text) : Renamed r (bare t) (bare t) := by
  have hbare : bare t = ofPieces [.other t] := by
    simp [bare, ofPieces, occurrencesIn, Piece.occurrence?, Piece.text]
  exact ⟨[.other t], by simp [Piece.Valid], hbare, hbare⟩

theorem Renamed.append (h : Renamed r p p') (h' : Renamed r q q') :
    Renamed r (p.append q) (p'.append q') := by
  obtain ⟨pieces, hvalid, rfl, rfl⟩ := h
  obtain ⟨more, hvalid', rfl, rfl⟩ := h'
  refine ⟨pieces ++ more, fun q hq => ?_, (ofPieces_append _ _).symm, ?_⟩
  · exact (List.mem_append.1 hq).elim (hvalid q) (hvalid' q)
  · rw [List.map_append, ofPieces_append]

end Part

namespace Markup

theorem accepted_of_isIdentifierPart {quote c : Char} (hquote : isQuote quote = true)
    (h : isIdentifierPart c = true) : (isAllowed c && c != '<' && c != quote) = true := by
  have hbounds : 48 ≤ c.toNat ∧ c.toNat ≤ 122 := by
    simp only [isIdentifierPart, isIdentifierStart, isAsciiLetter, isAsciiDigit, Bool.or_eq_true,
      Bool.and_eq_true, decide_eq_true_iff, beq_iff_eq, Char.le_def, UInt32.le_iff_toNat_le] at h
    rcases h with ((⟨hlow, hhigh⟩ | ⟨hlow, hhigh⟩) | rfl) | ⟨hlow, hhigh⟩
    · exact ⟨Nat.le_trans (by decide) hlow, hhigh⟩
    · exact ⟨Nat.le_trans (by decide) hlow, Nat.le_trans hhigh (by decide)⟩
    · decide
    · exact ⟨hlow, Nat.le_trans hhigh (by decide)⟩
  have hangle : c ≠ '<' := by
    rintro rfl
    exact absurd h (by decide)
  have hother : c ≠ quote := by
    rintro rfl
    rcases isQuote_iff.1 hquote with rfl | rfl <;> exact absurd h (by decide)
  have hlow : 0x20 ≤ c.toNat := by omega
  have hfffe : c.toNat ≠ 0xFFFE := by omega
  have hffff : c.toNat ≠ 0xFFFF := by omega
  simp [isAllowed, hangle, hother, hlow, hfffe, hffff]

namespace WrittenAttribute

def opening (a : WrittenAttribute) : Text :=
  a.gap.text ++ a.name.text ++ (a.quoting.before.text ++ '=' :: a.quoting.after.text)

theorem lead_eq (a : WrittenAttribute) : a.lead = a.opening ++ [a.quoting.quote] := by
  simp [lead, opening, Quoting.render]

/-- An attribute with another value, in which nothing but parts of names is new. -/
def withValue (a : WrittenAttribute) (value : Text)
    (h : ∀ c ∈ value, c ∈ a.value ∨ isIdentifierPart c = true) : WrittenAttribute where
  gap := a.gap
  name := a.name
  quoting := a.quoting
  value := value
  valid := by
    refine List.all_eq_true.2 fun c hc => ?_
    rcases h c hc with hc | hc
    · exact List.all_eq_true.1 a.valid c hc
    · exact accepted_of_isIdentifierPart a.quoting.valid hc

end WrittenAttribute

section Parts

variable (r : Renaming) (parent : Option Text) (tagName : Text)

def attributePart (a : WrittenAttribute) : Part where
  text := a.render
  found offset := inAttribute parent tagName (a.placed offset)

def attributesPart (as : List WrittenAttribute) : Part where
  text := as.flatMap WrittenAttribute.render
  found offset := (WrittenAttribute.placeAll offset as).flatMap (inAttribute parent tagName)

def tagPart (isEmpty : Bool) (tag : StartTag) : Part where
  text := tag.render isEmpty
  found offset := inTag parent (tag.placed isEmpty offset)

theorem attributePart_of_declares {a : WrittenAttribute}
    (h : declares parent tagName (a.placed 0) = true) :
    attributePart parent tagName a =
      .ofPieces [.other a.opening, .declared a.quoting.quote a.value] := by
  have hdeclares : ∀ offset, declares parent tagName (a.placed offset) = true := fun _ => h
  ext1
  · simp [attributePart, Part.ofPieces, Piece.text, WrittenAttribute.render, a.lead_eq]
  · funext offset
    change inAttribute parent tagName (a.placed offset) = _
    rw [inAttribute, hdeclares offset, if_pos rfl]
    simp [Part.ofPieces, occurrencesIn, Piece.occurrence?, Piece.text, WrittenAttribute.placed,
      a.lead_eq, Nat.add_assoc]

theorem attributePart_of_spelled {a : WrittenAttribute} {pieces : List Piece}
    (h : declares parent tagName (a.placed 0) = false)
    (hspell : spell pieces = a.quoting.quote :: a.value)
    (hspelled : Spelled (Text.contains tableMarker a.value) false pieces) :
    attributePart parent tagName a =
      .ofPieces (.other a.opening :: (pieces ++ [.other [a.quoting.quote]])) := by
  have hdeclares : ∀ offset, declares parent tagName (a.placed offset) = false := fun _ => h
  have hquote : stillAssigned false a.quoting.quote = false := by
    rcases isQuote_iff.1 a.quoting.valid with hq | hq <;> simp [stillAssigned, hq]
  ext1
  · simp [attributePart, Part.ofPieces, Piece.text, hspell, WrittenAttribute.render, a.lead_eq]
  · funext offset
    have hvalue := hspelled.inValue_eq hspell (offset + a.opening.byteSize)
    rw [hquote] at hvalue
    change inAttribute parent tagName (a.placed offset) = _
    rw [inAttribute, hdeclares offset, if_neg Bool.false_ne_true]
    simp [Part.ofPieces, occurrencesIn, Piece.occurrence?, Piece.text, WrittenAttribute.placed,
      a.lead_eq, occurrencesIn_append, ← hvalue, Nat.add_assoc]

theorem exists_renamed_attribute (a : WrittenAttribute) :
    ∃ a', Part.Renamed r (attributePart parent tagName a) (attributePart parent tagName a') := by
  cases hdeclares : declares parent tagName (a.placed 0) with
  | true =>
    have hvalue : ∀ c ∈ if r.Concerns .plain a.value then r.written a.value else a.value,
        c ∈ a.value ∨ isIdentifierPart c = true := by
      intro c hc
      split at hc
      · exact r.mem_written hc
      · exact .inl hc
    refine ⟨a.withValue _ hvalue, _, ?_, attributePart_of_declares parent tagName hdeclares,
      attributePart_of_declares parent tagName hdeclares⟩
    simp [Piece.Valid, a.quoting.valid]
  | false =>
    obtain ⟨pieces, value', hspell, hspelled, hspell', hspelled', hvalue⟩ :=
      exists_renamed_value r a.quoting.valid a.value
    refine ⟨a.withValue value' hvalue, _, ?_,
      attributePart_of_spelled parent tagName hdeclares hspell hspelled, ?_⟩
    · have hvalid := hspelled.valid
      simp only [List.mem_cons, List.mem_append, List.not_mem_nil, or_false]
      rintro q (rfl | hq | rfl)
      · trivial
      · exact hvalid q hq
      · trivial
    · rw [List.map_cons, List.map_append]
      exact attributePart_of_spelled (a := a.withValue value' hvalue) parent tagName hdeclares
        hspell' hspelled'

theorem exists_renamed_attributes (as : List WrittenAttribute) :
    ∃ as', Part.Renamed r (attributesPart parent tagName as)
      (attributesPart parent tagName as') := by
  induction as with
  | nil => exact ⟨[], Part.renamed_bare r []⟩
  | cons a as ih =>
    obtain ⟨as', has⟩ := ih
    obtain ⟨a', ha⟩ := exists_renamed_attribute r parent tagName a
    exact ⟨a' :: as', ha.append has⟩

theorem exists_renamed_tag (isEmpty : Bool) (tag : StartTag) :
    ∃ tag' : StartTag, tag'.name = tag.name ∧
      Part.Renamed r (tagPart parent isEmpty tag) (tagPart parent isEmpty tag') := by
  obtain ⟨as', has⟩ := exists_renamed_attributes r parent tag.name.text tag.attributes
  have hsplit : ∀ as, tagPart parent isEmpty ⟨tag.name, as, tag.tail⟩ =
      (Part.bare ('<' :: tag.name.text)).append
        ((attributesPart parent tag.name.text as).append
          (.bare (tag.tail.text ++ StartTag.ending isEmpty))) := by
    intro as
    ext1
    · simp [tagPart, Part.append, Part.bare, attributesPart, StartTag.render]
    · funext offset
      simp [tagPart, Part.append, Part.bare, attributesPart, inTag, StartTag.placed]
  refine ⟨⟨tag.name, as', tag.tail⟩, rfl, ?_⟩
  rw [hsplit as', hsplit tag.attributes]
  exact (Part.renamed_bare r _).append (has.append (Part.renamed_bare r _))

def inTags (tags : List (Option Text × Tag)) : List Occurrence :=
  tags.flatMap fun (parent, tag) => inTag parent tag

def leafPart (parent : Text) (l : Leaf) : Part where
  text := l.render
  found offset := inTags (l.tags parent offset)

def contentPart (parent : Text) (c : Content) : Part where
  text := c.render
  found offset := inTags (c.tags parent offset)

def elementPart (e : Element) : Part where
  text := e.render
  found offset := inTags (e.tags offset)

theorem exists_renamed_leaf (parent : Text) (l : Leaf) :
    ∃ l', Part.Renamed r (leafPart parent l) (leafPart parent l') := by
  cases l with
  | comment c => exact ⟨.comment c, Part.renamed_bare r c.render⟩
  | cdata t => exact ⟨.cdata t, Part.renamed_bare r t.render⟩
  | empty tag =>
    obtain ⟨tag', -, htag⟩ := exists_renamed_tag r (some parent) true tag
    have hleaf : ∀ tag, leafPart parent (.empty tag) = tagPart (some parent) true tag := by
      intro tag
      ext1
      · rfl
      · funext offset
        simp [leafPart, tagPart, Leaf.tags, inTags]
    refine ⟨.empty tag', ?_⟩
    rw [hleaf, hleaf]
    exact htag

theorem contentPart_leaf (parent : Text) (t : CharData) (l : Leaf) (more : Content) :
    contentPart parent (.leaf t l more) =
      (Part.bare t.text).append ((leafPart parent l).append (contentPart parent more)) := by
  ext1
  · simp [contentPart, Part.append, Part.bare, leafPart, Content.render]
  · funext offset
    simp [contentPart, Part.append, Part.bare, leafPart, Content.tags, inTags]

theorem contentPart_element (parent : Text) (t : CharData) (tag : StartTag) (inner : Content)
    (space : Spaces) (more : Content) :
    contentPart parent (.element t tag inner space more) =
      (Part.bare t.text).append ((tagPart (some parent) false tag).append
        ((contentPart tag.name.text inner).append
          ((Part.bare (tag.closing space)).append (contentPart parent more)))) := by
  ext1
  · simp [contentPart, Part.append, Part.bare, tagPart, Content.render]
  · funext offset
    simp [contentPart, Part.append, Part.bare, tagPart, Content.tags, inTags]

theorem exists_renamed_content (parent : Text) (c : Content) :
    ∃ c', Part.Renamed r (contentPart parent c) (contentPart parent c') := by
  induction c generalizing parent with
  | last t => exact ⟨.last t, Part.renamed_bare r t.text⟩
  | leaf t l more ih =>
    obtain ⟨l', hl⟩ := exists_renamed_leaf r parent l
    obtain ⟨more', hmore⟩ := ih parent
    refine ⟨.leaf t l' more', ?_⟩
    rw [contentPart_leaf, contentPart_leaf]
    exact (Part.renamed_bare r _).append (hl.append hmore)
  | element t tag inner space more ihInner ihMore =>
    obtain ⟨tag', hname, htag⟩ := exists_renamed_tag r (some parent) false tag
    obtain ⟨inner', hinner⟩ := ihInner tag.name.text
    obtain ⟨more', hmore⟩ := ihMore parent
    -- The tag keeps its name: it closes as before, and what is inside has the same parent.
    have hclosing : tag'.closing space = tag.closing space := by
      rw [StartTag.closing, StartTag.closing, hname]
    refine ⟨.element t tag' inner' space more', ?_⟩
    rw [contentPart_element, contentPart_element, hclosing, hname]
    exact (Part.renamed_bare r _).append
      (htag.append (hinner.append ((Part.renamed_bare r _).append hmore)))

theorem elementPart_paired (tag : StartTag) (inner : Content) (space : Spaces) :
    elementPart (.paired tag inner space) =
      (tagPart none false tag).append
        ((contentPart tag.name.text inner).append (Part.bare (tag.closing space))) := by
  ext1
  · simp [elementPart, Part.append, Part.bare, tagPart, contentPart, Element.render]
  · funext offset
    simp [elementPart, Part.append, Part.bare, tagPart, contentPart, Element.tags, inTags]

theorem exists_renamed_element (e : Element) :
    ∃ e', Part.Renamed r (elementPart e) (elementPart e') := by
  cases e with
  | empty tag =>
    obtain ⟨tag', -, htag⟩ := exists_renamed_tag r none true tag
    have helement : ∀ tag, elementPart (.empty tag) = tagPart none true tag := by
      intro tag
      ext1
      · rfl
      · funext offset
        simp [elementPart, tagPart, Element.tags, inTags]
    refine ⟨.empty tag', ?_⟩
    rw [helement, helement]
    exact htag
  | paired tag inner space =>
    obtain ⟨tag', hname, htag⟩ := exists_renamed_tag r none false tag
    obtain ⟨inner', hinner⟩ := exists_renamed_content r tag.name.text inner
    have hclosing : tag'.closing space = tag.closing space := by
      rw [StartTag.closing, StartTag.closing, hname]
    refine ⟨.paired tag' inner' space, ?_⟩
    rw [elementPart_paired, elementPart_paired, hclosing, hname]
    exact htag.append (hinner.append (Part.renamed_bare r _))

end Parts

def treePart (t : Tree) : Part :=
  (Part.bare t.prolog.render).append ((elementPart t.root).append (.bare t.tail.text))

theorem treePart_text (t : Tree) : (treePart t).text = t.render := by
  simp [treePart, Part.append, Part.bare, elementPart, Tree.render]

theorem treePart_found (t : Tree) : (treePart t).found 0 = ofDocument t.render := by
  rw [ofDocument_eq]
  simp [treePart, Part.append, Part.bare, elementPart, Tree.tags, inTags]

end Markup

/-- A written document is cut into pieces that hold its variables, and renaming a variable in them
leads to another written document with the renamed pieces. -/
theorem exists_renamed_tree (r : Renaming) (t : Tree) :
    ∃ (t' : Tree) (pieces : List Piece), (∀ p ∈ pieces, p.Valid) ∧
      t.render = spell pieces ∧ Occurrence.ofDocument t.render = occurrencesIn 0 pieces ∧
      t'.render = spell (pieces.map (Piece.renamed r)) ∧
      Occurrence.ofDocument t'.render = occurrencesIn 0 (pieces.map (Piece.renamed r)) := by
  obtain ⟨e', he⟩ := exists_renamed_element r t.root
  let t' : Tree := ⟨t.prolog, e', t.tail⟩
  have hrenamed : Part.Renamed r (treePart t) (treePart t') :=
    (Part.renamed_bare r _).append (he.append (Part.renamed_bare r _))
  obtain ⟨pieces, hvalid, hpieces, hpieces'⟩ := hrenamed
  refine ⟨t', pieces, hvalid, ?_⟩
  rw [← treePart_found, ← treePart_found, ← treePart_text, ← treePart_text, hpieces, hpieces']
  exact ⟨rfl, rfl, rfl, rfl⟩

end ScriptLens
