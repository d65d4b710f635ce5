import ScriptLens.Markup.Entity
import ScriptLens.Markup.Lexeme

/-!
The events of a text: its opened and closed elements, its character data and its faults, in order.
A tag that a fault broke off is opened with the attributes read so far, and also closed if what was
skipped ends as an empty tag does.
-/

namespace ScriptLens.Markup

def Attribute.decoded (a : Attribute) : Text :=
  unescape a.value

structure Tag where
  name : Text
  start : Nat
  stop : Nat
  attributes : List Attribute
  deriving DecidableEq, Repr

namespace Tag

/-- The decoded value of an attribute; of two with one name the first counts. -/
def value? (tag : Tag) (name : Text) : Option Text :=
  (tag.attributes.find? (·.name = name)).map Attribute.decoded

def push (tag : Tag) (a : Attribute) : Tag :=
  { tag with attributes := tag.attributes ++ [a] }

end Tag

inductive Event where
  | opened (tag : Tag)
  | closed (name : Text)
  | text (content : Text)
  | fault (f : Fault)
  deriving DecidableEq, Repr

def Tag.finish (tag : Tag) (stop : Nat) (isEmpty : Bool) : List Event :=
  .opened { tag with stop } :: if isEmpty then [.closed tag.name] else []

def finishPending (pending : Option Tag) (stop : Nat) (isEmpty : Bool) : List Event :=
  match pending with
  | some tag => tag.finish stop isEmpty
  | none => []

def events : Option Tag → List Lexeme → List Event
  | _, [] => []
  | pending, .fault f skipped stop :: rest =>
    .fault f :: finishPending pending stop (Text.endsWith "/>".toList (Text.trimEnd skipped)) ++
      events none rest
  | pending, .token t stop :: rest =>
    match t with
    | .tagStart name start => events (some ⟨name, start, stop, []⟩) rest
    | .attribute a => events (pending.map (·.push a)) rest
    | .tagEnd => finishPending pending stop false ++ events none rest
    | .emptyTagEnd => finishPending pending stop true ++ events none rest
    | .closeTag name => .closed name :: events pending rest
    | .text content => .text content :: events pending rest
    | .cdata content => .text content :: events pending rest
    | .aside => events pending rest

def scan (document : Text) : List Event :=
  events none (lexemes document)

end ScriptLens.Markup
