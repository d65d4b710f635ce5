import ScriptLens.Text.Basic

/-!
Templates of texts: fixed parts, white space and numbers in a row. A template takes as much white
space and as many digits as there are, which decides how it matches, because no part begins with
what the part before it takes.
-/

namespace ScriptLens

inductive TemplatePart where
  | literal (t : Text)
  /-- White space, perhaps none. -/
  | blanks
  /-- At least one character of white space. -/
  | gap
  /-- At least one digit. -/
  | number
  deriving DecidableEq, Repr

abbrev Template := List TemplatePart

namespace Template

/-- Takes a template off the front of a text: the numbers in it, and what follows. -/
def match? : Template → Text → Option (List Text × Text)
  | [], t => some ([], t)
  | .literal expected :: parts, t => (Text.after? expected t).bind (match? parts)
  | .blanks :: parts, t => match? parts (Text.trimStart t)
  | .gap :: parts, t =>
    if t.head?.any isBlank then match? parts (Text.trimStart t) else none
  | .number :: parts, t =>
    if t.head?.any isDigit then
      (match? parts (t.dropWhile isDigit)).map fun (numbers, rest) =>
        (t.takeWhile isDigit :: numbers, rest)
    else none

def matchesAll (template : Template) (t : Text) : Bool :=
  (match? template t).any fun (_, rest) => rest.isEmpty

def leading? (templates : List Template) (t : Text) : Option (List Text × Text) :=
  templates.findSome? fun template => match? template t

structure Found where
  start : Nat
  stop : Nat
  numbers : List Text
  deriving DecidableEq, Repr

/-- The places from left to right that do not overlap; `skip` characters belong to the last one. -/
def allFrom (templates : List Template) : (skip offset : Nat) → Text → List Found
  | _, _, [] => []
  | skip + 1, offset, c :: t => allFrom templates skip (offset + c.utf8Size) t
  | 0, offset, c :: t =>
    match leading? templates (c :: t) with
    | some (numbers, rest) =>
      let taken := (c :: t).take (t.length + 1 - rest.length)
      ⟨offset, offset + Text.byteSize taken, numbers⟩ ::
        allFrom templates (taken.length - 1) (offset + c.utf8Size) t
    | none => allFrom templates 0 (offset + c.utf8Size) t

def all (templates : List Template) (t : Text) : List Found :=
  allFrom templates 0 0 t

def first? (templates : List Template) : Text → Option (List Text × Text)
  | [] => none
  | c :: t => leading? templates (c :: t) <|> first? templates t

end Template

end ScriptLens
