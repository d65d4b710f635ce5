import ScriptLens.Proofs.Markup.Tree

/-!
Places in a document: in the content of one of its elements, in a text of it or between two things.
Each place cuts the text of the document in two (`TreeHole.render_tree`).
-/

namespace ScriptLens.Markup

namespace Content

def first : Content → CharData
  | .last t => t
  | .leaf t _ _ => t
  | .element t _ _ _ _ => t

def withFirst (t : CharData) : Content → Content
  | .last _ => .last t
  | .leaf _ l rest => .leaf t l rest
  | .element _ tag inner space rest => .element t tag inner space rest

def later (c : Content) : Content :=
  c.withFirst .none

theorem render_withFirst (t : CharData) (c : Content) :
    (c.withFirst t).render = t.text ++ c.later.render := by
  cases c <;> simp [withFirst, later, render]

theorem render_eq_first (c : Content) : c.render = c.first.text ++ c.later.render := by
  cases c <;> simp [first, withFirst, later, render]

theorem withFirst_later (c : Content) : c.later.withFirst c.first = c := by
  cases c <;> rfl

theorem first_later (c : Content) : c.later.first.text = [] := by
  cases c <;> rfl

end Content

/-- A place in content, in one of its texts or at the end of one. -/
inductive Hole where
  /-- A text is cut in two, and its second part begins the content after the place. -/
  | here (cut whole : CharData) (after : Content)
    (joined : whole.text = cut.text ++ after.first.text)
  | leaf (t : CharData) (l : Leaf) (rest : Hole)
  | inside (t : CharData) (tag : StartTag) (inner : Hole) (space : Spaces) (rest : Content)
  | element (t : CharData) (tag : StartTag) (inner : Content) (space : Spaces) (rest : Hole)

namespace Hole

def content : Hole → Content
  | .here _ whole after _ => after.withFirst whole
  | .leaf t l rest => .leaf t l rest.content
  | .inside t tag inner space rest => .element t tag inner.content space rest
  | .element t tag inner space rest => .element t tag inner space rest.content

def before : Hole → Text
  | .here cut _ _ _ => cut.text
  | .leaf t l rest => t.text ++ l.render ++ rest.before
  | .inside t tag inner _ _ => t.text ++ tag.render false ++ inner.before
  | .element t tag inner space rest =>
    t.text ++ tag.render false ++ inner.render ++ tag.closing space ++ rest.before

def after : Hole → Text
  | .here _ _ after _ => after.render
  | .leaf _ _ rest => rest.after
  | .inside _ tag inner space rest => inner.after ++ tag.closing space ++ rest.render
  | .element _ _ _ _ rest => rest.after

/-- The elements of the content that are open at the place, innermost first. -/
def opened : Hole → List Text
  | .here _ _ _ _ => []
  | .leaf _ _ rest => rest.opened
  | .inside _ tag inner _ _ => inner.opened ++ [tag.name.text]
  | .element _ _ _ _ rest => rest.opened

/-- The text from the place up to the end of the content's own element around it. -/
def within : Hole → Text
  | .here _ _ _ _ => []
  | .leaf _ _ rest => rest.within
  | .inside _ tag inner space _ => inner.after ++ tag.closing space
  | .element _ _ _ _ rest => rest.within

/-- The content after that element; after the place, if no element of the content is around it. -/
def remaining : Hole → Content
  | .here _ _ after _ => after
  | .leaf _ _ rest => rest.remaining
  | .inside _ _ _ _ rest => rest
  | .element _ _ _ _ rest => rest.remaining

theorem render_content (h : Hole) : h.content.render = h.before ++ h.after := by
  induction h with
  | here cut whole after joined =>
    simp [content, before, Hole.after, Content.render_withFirst, joined, after.render_eq_first]
  | leaf t l rest ih => simp [content, Content.render, before, after, ih]
  | inside t tag inner space rest ih => simp [content, Content.render, before, after, ih]
  | element t tag inner space rest ih => simp [content, Content.render, before, after, ih]

theorem after_eq (h : Hole) : h.after = h.within ++ h.remaining.render := by
  induction h with
  | here cut whole after joined => rfl
  | leaf t l rest ih => exact ih
  | inside t tag inner space rest _ => rfl
  | element t tag inner space rest ih => exact ih

end Hole

/-- A document whose root is not empty, and a place in the content of one of its elements. -/
structure TreeHole where
  prolog : Prolog
  root : StartTag
  hole : Hole
  space : Spaces
  tail : Spaces

namespace TreeHole

def tree (d : TreeHole) : Tree :=
  ⟨d.prolog, .paired d.root d.hole.content d.space, d.tail⟩

def before (d : TreeHole) : Text :=
  d.prolog.render ++ d.root.render false ++ d.hole.before

def after (d : TreeHole) : Text :=
  d.hole.after ++ d.root.closing d.space ++ d.tail.text

def filled (d : TreeHole) (text : Text) : Text :=
  d.before ++ text ++ d.after

def opened (d : TreeHole) : List Text :=
  d.hole.opened ++ [d.root.name.text]

theorem render_tree (d : TreeHole) : d.tree.render = d.filled [] := by
  simp [tree, Tree.render, Element.render, filled, before, after, Hole.render_content]

end TreeHole

end ScriptLens.Markup
