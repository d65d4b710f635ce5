import ScriptLens.Markup.Event

/-!
Element trees and the text that each of them is written as. Every part carries the proof that it
may stand where it stands, so a tree cannot be malformed; `Tree.events` says what a scan of the text
should report, with the byte offsets at which the parts were put.
-/

namespace ScriptLens.Markup

structure Spaces where
  text : Text
  valid : text.all isSpace = true

def Spaces.none : Spaces :=
  ⟨[], List.all_nil⟩

structure Gap extends Spaces where
  nonempty : text ≠ []

theorem Gap.valid_space : List.all [' '] isSpace = true := rfl

theorem Gap.space_ne_nil : [' '] ≠ ([] : Text) := List.cons_ne_nil _ _

def Gap.space : Gap :=
  ⟨⟨[' '], valid_space⟩, space_ne_nil⟩

structure PlainName where
  text : Text
  starts : text.head?.any isNameStart = true
  valid : (text.all fun c => isNameChar c && c != ':') = true

def PlainName.letter (c : Char) (h : (isNameStart c && c != ':') = true) : PlainName where
  text := [c]
  starts := by simp_all
  valid := by simp_all [isNameChar]

structure QualifiedName where
  scope : Option PlainName
  base : PlainName

def QualifiedName.text (n : QualifiedName) : Text :=
  match n.scope with
  | none => n.base.text
  | some scope => scope.text ++ ':' :: n.base.text

/-- How a value is put beside its name: the equals sign and the quotes around the value. -/
structure Quoting where
  before : Spaces
  after : Spaces
  quote : Char
  valid : isQuote quote = true

namespace Quoting

def render (q : Quoting) : Text :=
  q.before.text ++ '=' :: q.after.text ++ [q.quote]

theorem isQuote_double : isQuote '"' = true := rfl

theorem isQuote_single : isQuote '\'' = true := rfl

def double : Quoting :=
  ⟨.none, .none, '"', isQuote_double⟩

def single : Quoting :=
  ⟨.none, .none, '\'', isQuote_single⟩

end Quoting

structure WrittenAttribute where
  gap : Gap
  name : QualifiedName
  quoting : Quoting
  value : Text
  valid : (value.all fun c => isAllowed c && c != '<' && c != quoting.quote) = true

namespace WrittenAttribute

def lead (a : WrittenAttribute) : Text :=
  a.gap.text ++ a.name.text ++ a.quoting.render

def render (a : WrittenAttribute) : Text :=
  a.lead ++ a.value ++ [a.quoting.quote]

/-- The attribute that a scan reports if this one is written at an offset. -/
def placed (a : WrittenAttribute) (offset : Nat) : Attribute :=
  ⟨a.name.text, a.quoting.quote, a.value, offset + a.lead.byteSize⟩

def placeAll : (offset : Nat) → List WrittenAttribute → List Attribute
  | _, [] => []
  | offset, a :: rest => a.placed offset :: placeAll (offset + a.render.byteSize) rest

end WrittenAttribute

/-- The opening tag of an element, or the only one of an empty element. -/
structure StartTag where
  name : QualifiedName
  attributes : List WrittenAttribute
  tail : Spaces

namespace StartTag

def withAttribute (name key : PlainName) (quoting : Quoting) (value : Text)
    (valid : (value.all fun c => isAllowed c && c != '<' && c != quoting.quote) = true) :
    StartTag :=
  ⟨⟨none, name⟩, [⟨.space, ⟨none, key⟩, quoting, value, valid⟩], .none⟩

def ending (isEmpty : Bool) : Text :=
  if isEmpty then "/>".toList else ">".toList

def render (tag : StartTag) (isEmpty : Bool) : Text :=
  '<' :: tag.name.text ++ tag.attributes.flatMap WrittenAttribute.render ++ tag.tail.text ++
    ending isEmpty

def placed (tag : StartTag) (isEmpty : Bool) (offset : Nat) : Tag where
  name := tag.name.text
  start := offset
  stop := offset + (tag.render isEmpty).byteSize
  attributes :=
    WrittenAttribute.placeAll (offset + Text.byteSize ('<' :: tag.name.text)) tag.attributes

def value? (tag : StartTag) (name : Text) : Option Text :=
  (tag.attributes.find? (·.name.text = name)).map fun a => unescape a.value

theorem find?_placeAll (offset : Nat) (as : List WrittenAttribute) (name : Text) :
    ((WrittenAttribute.placeAll offset as).find? (·.name = name)).map Attribute.decoded =
      (as.find? (·.name.text = name)).map fun a => unescape a.value := by
  induction as generalizing offset with
  | nil => rfl
  | cons a as ih =>
    simp only [WrittenAttribute.placeAll, List.find?_cons, WrittenAttribute.placed]
    cases decide (a.name.text = name) with
    | true => rfl
    | false => exact ih _

@[simp] theorem value?_placed (tag : StartTag) (isEmpty : Bool) (offset : Nat) (name : Text) :
    (tag.placed isEmpty offset).value? name = tag.value? name :=
  find?_placeAll _ _ _

def closing (tag : StartTag) (space : Spaces) : Text :=
  "</".toList ++ tag.name.text ++ space.text ++ ">".toList

end StartTag

structure CharData where
  text : Text
  valid : (text.all fun c => isAllowed c && c != '<') = true
  noSectionEnd : Text.contains "]]>".toList text = false

namespace CharData

def events (t : CharData) : List Event :=
  if t.text = [] then [] else [.text t.text]

theorem valid_nil : (List.all [] fun c => isAllowed c && c != '<') = true := rfl

theorem noSectionEnd_nil : Text.contains "]]>".toList [] = false := rfl

def none : CharData :=
  ⟨[], valid_nil, noSectionEnd_nil⟩

@[simp] theorem text_none : CharData.none.text = [] := rfl

end CharData

structure Comment where
  text : Text
  valid : text.all isAllowed = true
  noDashes : Text.contains "--".toList text = false
  noDashAtEnd : Text.endsWith ['-'] text = false

def Comment.render (c : Comment) : Text :=
  "<!--".toList ++ c.text ++ "-->".toList

structure CharSection where
  text : Text
  valid : text.all isAllowed = true
  noSectionEnd : Text.contains "]]>".toList text = false

def CharSection.render (s : CharSection) : Text :=
  "<![CDATA[".toList ++ s.text ++ "]]>".toList

inductive Leaf where
  | comment (c : Comment)
  | cdata (s : CharSection)
  | empty (tag : StartTag)

namespace Leaf

def render : Leaf → Text
  | .comment c => c.render
  | .cdata s => s.render
  | .empty tag => tag.render true

def events (offset : Nat) : Leaf → List Event
  | .comment _ => []
  | .cdata s => [.text s.text]
  | .empty tag => [.opened (tag.placed true offset), .closed tag.name.text]

end Leaf

/-- What stands between the tags of an element. A text comes before each thing in it and after the
last; it may be empty, and no other text is next to it. -/
inductive Content where
  | last (t : CharData)
  | leaf (t : CharData) (l : Leaf) (rest : Content)
  | element (t : CharData) (tag : StartTag) (inner : Content) (space : Spaces) (rest : Content)

namespace Content

def render : Content → Text
  | .last t => t.text
  | .leaf t l rest => t.text ++ l.render ++ rest.render
  | .element t tag inner space rest =>
    t.text ++ tag.render false ++ inner.render ++ tag.closing space ++ rest.render

def events (offset : Nat) : Content → List Event
  | .last t => t.events
  | .leaf t l rest =>
    let start := offset + t.text.byteSize
    t.events ++ l.events start ++ rest.events (start + l.render.byteSize)
  | .element t tag inner space rest =>
    let start := offset + t.text.byteSize
    let inside := start + (tag.render false).byteSize
    let stop := inside + inner.render.byteSize + (tag.closing space).byteSize
    t.events ++ .opened (tag.placed false start) :: inner.events inside ++
      .closed tag.name.text :: rest.events stop

end Content

/-- An element that is a document's only one. It may be empty in either way of writing. -/
inductive Element where
  | empty (tag : StartTag)
  | paired (tag : StartTag) (inner : Content) (space : Spaces)

namespace Element

def name : Element → Text
  | .empty tag => tag.name.text
  | .paired tag _ _ => tag.name.text

def render : Element → Text
  | .empty tag => tag.render true
  | .paired tag inner space => tag.render false ++ inner.render ++ tag.closing space

def events (offset : Nat) : Element → List Event
  | .empty tag => [.opened (tag.placed true offset), .closed tag.name.text]
  | .paired tag inner _ =>
    .opened (tag.placed false offset) :: inner.events (offset + (tag.render false).byteSize) ++
      [.closed tag.name.text]

end Element

structure EncodingPart where
  gap : Gap
  quoting : Quoting
  value : Text
  valid : value.all Reader.isEncodingChar = true

def EncodingPart.render (e : EncodingPart) : Text :=
  e.gap.text ++ "encoding".toList ++ e.quoting.render ++ e.value ++ [e.quoting.quote]

structure StandalonePart where
  gap : Gap
  quoting : Quoting
  value : Bool

def StandalonePart.render (s : StandalonePart) : Text :=
  s.gap.text ++ "standalone".toList ++ s.quoting.render ++
    (if s.value then "yes".toList else "no".toList) ++ [s.quoting.quote]

/-- The line at the top of a document, of version one point something. -/
structure Declaration where
  space : Spaces
  quoting : Quoting
  minor : Text
  valid : minor.all isAsciiDigit = true
  encoding : Option EncodingPart
  standalone : Option StandalonePart
  tail : Spaces

namespace Declaration

def version (d : Declaration) : Text :=
  d.space.text ++ "version".toList ++ d.quoting.render ++ "1.".toList ++ d.minor ++
    [d.quoting.quote]

def render (d : Declaration) : Text :=
  "<?xml ".toList ++ d.version ++ (d.encoding.map EncodingPart.render).getD [] ++
    (d.standalone.map StandalonePart.render).getD [] ++ d.tail.text ++ "?>".toList

end Declaration

/-- What stands before the root: a declaration, and comments with white space around them. -/
structure Prolog where
  declaration : Option Declaration
  space : Spaces
  comments : List (Comment × Spaces)

def Prolog.render (p : Prolog) : Text :=
  (p.declaration.map Declaration.render).getD [] ++ p.space.text ++
    p.comments.flatMap fun (c, space) => c.render ++ space.text

def Prolog.none : Prolog :=
  ⟨Option.none, .none, []⟩

structure Tree where
  prolog : Prolog
  root : Element
  tail : Spaces

namespace Tree

def render (t : Tree) : Text :=
  t.prolog.render ++ t.root.render ++ t.tail.text

def events (t : Tree) : List Event :=
  t.root.events t.prolog.render.byteSize

end Tree

end ScriptLens.Markup
