import ScriptLens.Markup.Event

/-!
The variables of a script: `$name` in attribute values, and the names that `param` elements
declare. Whether a `$name` is a variable, and of which kind, is told by the character before it and
by whether the value builds a table.
-/

namespace ScriptLens

inductive VariableKind where
  | plain
  | tableField
  deriving DecidableEq, Repr

def VariableKind.label : VariableKind → Text
  | .plain => "_variable_".toList
  | .tableField => "_remote variable_ or _table field_".toList

/-- A variable in a document, with the byte offsets of its text. -/
structure Occurrence where
  kind : VariableKind
  name : Text
  start : Nat
  stop : Nat
  deriving DecidableEq, Repr

namespace Occurrence

def isIdentifierStart (c : Char) : Bool :=
  isAsciiLetter c || c == '_'

def isIdentifierPart (c : Char) : Bool :=
  isIdentifierStart c || isAsciiDigit c

def identifier : Text → Text
  | [] => []
  | c :: t => if isIdentifierStart c then c :: t.takeWhile isIdentifierPart else []

/-- A value that holds this marker builds or indexes a table. -/
def tableMarker : Text := "table[".toList

def precedes (isTable : Bool) (c : Char) : Bool :=
  if isTable then c == ',' || c == ' ' || c == '['
  else c == ',' || c == '"' || c == '[' || c == '\x7b' || c == '@' || c == ' ' || c == '.'

/-- The kind of a variable after the character `previous`. Inside a table a key is a field, and
what an `=` assigns to it is plain. -/
def kind? (isTable assigned : Bool) (previous : Char) : Option VariableKind :=
  if precedes isTable previous then
    some (if previous != '.' && (!isTable || assigned) then .plain else .tableField)
  else none

/-- Whether an `=` still counts after a character: until the next comma or percent sign. -/
def stillAssigned (assigned : Bool) (c : Char) : Bool :=
  if c == '=' then true else if c == '%' || c == ',' then false else assigned

/-- The variables in the rest of a value, after the character `previous` and `offset` bytes. -/
def inValue (isTable : Bool) : (offset : Nat) → (previous : Char) → (assigned : Bool) → Text →
    List Occurrence
  | _, _, _, [] => []
  | offset, previous, assigned, c :: t =>
    let name := identifier t
    let others := inValue isTable (offset + c.utf8Size) c (stillAssigned assigned c) t
    if c = '$' ∧ name ≠ [] then
      match kind? isTable assigned previous with
      | some kind => ⟨kind, name, offset, offset + 1 + name.byteSize⟩ :: others
      | none => others
    else others

/-- A parameter's name is a variable as a whole, whatever it holds. -/
def declares (parent : Option Text) (tag : Text) (a : Markup.Attribute) : Bool :=
  tag = "param".toList && parent = some "params".toList && a.name = "name".toList

def inAttribute (parent : Option Text) (tag : Text) (a : Markup.Attribute) : List Occurrence :=
  if declares parent tag a then
    [⟨.plain, a.value, a.valueStart, a.valueStart + a.value.byteSize⟩]
  else
    inValue (Text.contains tableMarker a.value) a.valueStart a.quote false a.value

def inTag (parent : Option Text) (tag : Markup.Tag) : List Occurrence :=
  tag.attributes.flatMap (inAttribute parent tag.name)

/-- The open elements after one is closed, innermost first. Elements left open inside it are closed
with it; a name that is not open closes nothing. -/
def close (name : Text) (opened : List Text) : List Text :=
  match opened.dropWhile (· ≠ name) with
  | [] => opened
  | _ :: outer => outer

def ofEvents : (opened : List Text) → List Markup.Event → List Occurrence
  | _, [] => []
  | opened, .opened tag :: rest => inTag opened.head? tag ++ ofEvents (tag.name :: opened) rest
  | opened, .closed name :: rest => ofEvents (close name opened) rest
  | opened, .text _ :: rest => ofEvents opened rest
  | opened, .fault _ :: rest => ofEvents opened rest

def ofDocument (document : Text) : List Occurrence :=
  ofEvents [] (Markup.scan document)

end Occurrence

end ScriptLens
