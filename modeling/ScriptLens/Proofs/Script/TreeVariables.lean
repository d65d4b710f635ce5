import ScriptLens.Proofs.Markup.Report
import ScriptLens.Proofs.Script.Reference
import ScriptLens.Script.Dialect

/-!
The dialect and the variables of a written tree: the root's name tells the one, and the attributes
of its tags, in the order in which they are written, hold the others.
-/

namespace ScriptLens

namespace Markup

def Leaf.tags (parent : Text) (offset : Nat) : Leaf → List (Option Text × Tag)
  | .empty tag => [(some parent, tag.placed true offset)]
  | _ => []

def Content.tags (parent : Text) (offset : Nat) : Content → List (Option Text × Tag)
  | .last _ => []
  | .leaf t l rest =>
    let start := offset + t.text.byteSize
    l.tags parent start ++ rest.tags parent (start + l.render.byteSize)
  | .element t tag inner space rest =>
    let start := offset + t.text.byteSize
    let inside := start + (tag.render false).byteSize
    let stop := inside + inner.render.byteSize + (tag.closing space).byteSize
    (some parent, tag.placed false start) :: inner.tags tag.name.text inside ++
      rest.tags parent stop

def Element.tags (offset : Nat) : Element → List (Option Text × Tag)
  | .empty tag => [(none, tag.placed true offset)]
  | .paired tag inner _ =>
    (none, tag.placed false offset) ::
      inner.tags tag.name.text (offset + (tag.render false).byteSize)

def Tree.tags (t : Tree) : List (Option Text × Tag) :=
  t.root.tags t.prolog.render.byteSize

end Markup

namespace Occurrence

/-- The variables of an attribute: its whole value if it names a parameter, else the references in
its value. -/
def ofAttribute (parent : Option Text) (tag : Text) (a : Markup.Attribute) : List Occurrence :=
  if tag = "param".toList ∧ parent = some "params".toList ∧ a.name = "name".toList then
    [⟨.plain, a.value, a.valueStart, a.valueStart + a.value.byteSize⟩]
  else references a

theorem inAttribute_eq (parent : Option Text) (tag : Text) (a : Markup.Attribute) :
    inAttribute parent tag a = ofAttribute parent tag a := by
  unfold inAttribute declares ofAttribute
  rw [inValue_eq_references]
  simp only [Bool.and_eq_true, decide_eq_true_iff, and_assoc]

theorem inTag_eq (parent : Option Text) (tag : Markup.Tag) :
    inTag parent tag = tag.attributes.flatMap (ofAttribute parent tag.name) := by
  unfold inTag
  congr
  funext a
  exact inAttribute_eq parent tag.name a

theorem close_innermost (name : Text) (outer : List Text) : close name (name :: outer) = outer := by
  simp [close]

section Tree

open Markup

variable (parent : Text) (outer : List Text) (rest : List Event)

theorem ofEvents_text (t : CharData) : ofEvents outer (t.events ++ rest) = ofEvents outer rest := by
  unfold CharData.events
  split
  · rfl
  · simp [ofEvents]

theorem ofEvents_leaf (l : Leaf) (offset : Nat) :
    ofEvents (parent :: outer) (l.events offset ++ rest) =
      (l.tags parent offset).flatMap (fun (p, tag) => inTag p tag) ++
        ofEvents (parent :: outer) rest := by
  cases l with
  | comment c => rfl
  | cdata t => rfl
  | empty tag =>
    have hclose := close_innermost tag.name.text (parent :: outer)
    simp [Leaf.events, Leaf.tags, ofEvents, StartTag.placed, hclose]

theorem ofEvents_content (c : Content) (offset : Nat) :
    ofEvents (parent :: outer) (c.events offset ++ rest) =
      (c.tags parent offset).flatMap (fun (p, tag) => inTag p tag) ++
        ofEvents (parent :: outer) rest := by
  induction c generalizing parent outer rest offset with
  | last t => exact ofEvents_text (parent :: outer) rest t
  | leaf t l more ih =>
    simp only [Content.events, List.append_assoc]
    rw [ofEvents_text, ofEvents_leaf, ih]
    simp [Content.tags]
  | element t tag inner space more ihInner ihMore =>
    have hname : ∀ start, (tag.placed false start).name = tag.name.text := fun _ => rfl
    simp only [Content.events, List.append_assoc, List.cons_append]
    rw [ofEvents_text, ofEvents, hname, ihInner, ofEvents, close_innermost, ihMore]
    simp [Content.tags]

theorem ofEvents_element (e : Markup.Element) (offset : Nat) :
    ofEvents [] (e.events offset) =
      (e.tags offset).flatMap fun (p, tag) => inTag p tag := by
  cases e with
  | empty tag => simp [Element.events, Element.tags, ofEvents]
  | paired tag inner space =>
    have hname : (tag.placed false offset).name = tag.name.text := rfl
    simp only [Element.events, List.cons_append]
    rw [ofEvents, hname, ofEvents_content]
    simp [Element.tags, ofEvents]

theorem ofDocument_eq (t : Tree) :
    ofDocument t.render = t.tags.flatMap fun (p, tag) => inTag p tag := by
  rw [ofDocument, scan_eq_events]
  exact ofEvents_element t.root _

end Tree

end Occurrence

theorem Dialect.ofEvents?_element (e : Markup.Element) (offset : Nat) :
    Dialect.ofEvents? (e.events offset) = Dialect.ofRoot? e.name := by
  cases e <;> rfl

theorem Dialect.detect?_eq (t : Markup.Tree) :
    Dialect.detect? t.render = Dialect.ofRoot? t.root.name := by
  rw [Dialect.detect?, Markup.scan_eq_events]
  exact Dialect.ofEvents?_element t.root _

/-- The root's name tells a written tree's dialect. Its variables are, tag after tag and attribute
after attribute, the names that parameters declare and the references in all other values. -/
theorem tree_dialect_and_variables (t : Markup.Tree) :
    Dialect.detect? t.render = Dialect.ofRoot? t.root.name ∧
      Occurrence.ofDocument t.render = t.tags.flatMap fun (parent, tag) =>
        tag.attributes.flatMap (Occurrence.ofAttribute parent tag.name) := by
  constructor
  · exact Dialect.detect?_eq t
  · rw [Occurrence.ofDocument_eq]
    congr
    funext p
    exact Occurrence.inTag_eq p.1 p.2

end ScriptLens
