import ScriptLens.Text.Column

/-!
Documents and the places in them. A place is either a byte offset or a position of a line and a
column; `positionAt` and `offset?` go from one to the other.
-/

namespace ScriptLens

/-- Lines and columns count from zero. -/
structure Position where
  line : Nat
  column : Nat
  deriving DecidableEq, Repr

structure Range where
  start : Position
  stop : Position
  deriving DecidableEq, Repr

structure Location where
  uri : Text
  range : Range
  deriving DecidableEq, Repr

namespace Position

def zero : Position := ⟨0, 0⟩

def le (p q : Position) : Bool :=
  p.line < q.line || (p.line == q.line && p.column ≤ q.column)

def advance (p : Position) (c : Char) : Position :=
  if c = '\n' then ⟨p.line + 1, 0⟩ else ⟨p.line, p.column + units c⟩

end Position

/-- Both ends belong to the range. -/
def Range.contains (range : Range) (p : Position) : Bool :=
  range.start.le p && p.le range.stop

inductive Language where
  | markup
  | lua
  | other
  deriving DecidableEq, Repr

namespace Language

def ofName (name : Text) : Language :=
  if name = "xml".toList then .markup
  else if name = "lua".toList then .lua
  else .other

def ofPath (path : Text) : Language :=
  match Text.splitLast? (· = '.') path with
  | some (_, extension) => ofName (extension.map Char.toLower)
  | none => .other

end Language

structure Line where
  start : Nat
  content : Text
  deriving DecidableEq, Repr

namespace Line

/-- A carriage return belongs to the line break after it. -/
def dropReturn (piece : Text) : Text :=
  (Text.before? ['\r'] piece).getD piece

def layOut (start : Nat) : List Text → List Line
  | [] => []
  | [last] => [⟨start, last⟩]
  | piece :: next :: more =>
    ⟨start, dropReturn piece⟩ :: layOut (start + piece.byteSize + 1) (next :: more)

def ofText (t : Text) : List Line :=
  layOut 0 (t.fields '\n')

end Line

structure Document where
  text : Text
  language : Language
  deriving DecidableEq, Repr

namespace Document

def line? (d : Document) (line : Nat) : Option Line :=
  (Line.ofText d.text)[line]?

def textBefore? (d : Document) (p : Position) : Option Text :=
  (d.line? p.line).bind fun line => Text.toColumn? p.column line.content

/-- The byte offset of a position on the line; none past its end and inside a character. -/
def offset? (d : Document) (p : Position) : Option Nat :=
  (d.line? p.line).bind fun line =>
    (Text.toColumn? p.column line.content).map fun before => line.start + before.byteSize

/-- Walks `n` bytes through a text. An offset past the end stops there, one inside a character
goes to the start of its line. -/
def walk (p : Position) : Nat → Text → Position
  | 0, _ => p
  | _ + 1, [] => p
  | n + 1, c :: t =>
    if c.utf8Size ≤ n + 1 then walk (p.advance c) (n + 1 - c.utf8Size) t else ⟨p.line, 0⟩

def positionAt (d : Document) (offset : Nat) : Position :=
  walk .zero offset d.text

def rangeOf (d : Document) (start stop : Nat) : Range :=
  ⟨d.positionAt start, d.positionAt stop⟩

def slice? (d : Document) (range : Range) : Option Text :=
  (d.offset? range.start).bind fun start =>
    (d.offset? range.stop).bind fun stop => d.text.slice? start stop

def lineSpan? (d : Document) (line start stop : Nat) : Option Range :=
  (d.line? line).map fun l => d.rangeOf (l.start + start) (l.start + stop)

end Document

end ScriptLens
