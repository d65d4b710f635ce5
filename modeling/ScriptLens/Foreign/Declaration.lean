import ScriptLens.Text.Template

/-!
The declarations of foreign functions in a Lua source: the types and prototypes between the double
brackets after its header, a line each, except that a type with a body may take several lines.
-/

namespace ScriptLens

/-- What a declaration declares. A type keeps the text of its declaration. -/
inductive Declaration where
  | typedef (name content : Text)
  | prototype (result name parameters : Text)
  deriving DecidableEq, Repr

namespace Declaration

/-- The lines that give access to foreign functions, up to the brackets of the declarations. -/
def header : Template :=
  [.literal "local".toList, .gap, .literal "ffi".toList, .blanks, .literal ['='], .blanks,
    .literal "require(\"ffi\")".toList, .blanks, .literal "local".toList, .gap, .literal ['C'],
    .blanks, .literal ['='], .blanks, .literal "ffi.C".toList, .blanks,
    .literal "ffi.cdef[[".toList]

def untilBrackets? : Text → Option Text
  | [] => none
  | c :: t =>
    if Text.startsWith "]]".toList (c :: t) then some [] else (untilBrackets? t).map (c :: ·)

def block? (source : Text) : Option Text :=
  (Template.first? [header] source).bind fun (_, rest) => untilBrackets? rest

def lines (block : Text) : List Text :=
  ((Text.fields '\n' block).map Text.trim).filter (· ≠ [])

def opensBody (line : Text) : Bool :=
  ["struct".toList, "enum".toList, "union".toList].any fun keyword =>
    Template.matchesAll
      [.literal "typedef".toList, .gap, .literal keyword, .blanks, .literal ['\x7b'], .blanks] line

def terminated? (t : Text) : Option Text :=
  (Text.before? [';'] t).filter fun word => !word.isEmpty && word.all isWordPart

def afterGap? (t : Text) : Option Text :=
  if t.head?.any isBlank then some (Text.trimStart t) else none

def closesBody (line : Text) : Bool :=
  ((Text.after? ['\x7d'] line).bind afterGap?).any fun rest => (terminated? rest).isSome

def afterWord? (t : Text) : Option Text :=
  if t.head?.any isWordPart then some (t.dropWhile isWordPart) else none

/-- What follows the body of a type, if there is a body in front: it ends at the last brace. -/
def afterBody (t : Text) : Text :=
  match Text.after? ['\x7b'] t with
  | some rest =>
    ((Text.splitLast? (· == '\x7d') rest).map fun (_, after) => Text.trimStart after).getD t
  | none => t

def typeName? (t : Text) : Option Text :=
  ((Text.after? "typedef".toList t).bind afterGap?).bind fun rest =>
    ((afterWord? rest).bind afterGap?).bind fun rest => terminated? (afterBody rest)

def typedef? (content : Text) : Option Declaration :=
  (typeName? content).map fun name => .typedef name content

def isSignaturePart (c : Char) : Bool :=
  isWordPart c || isBlank c || c == '*'

def noResult : Text := "void".toList

def resultType? (t : Text) : Option Text :=
  match t.reverse with
  | [] => some noResult
  | [_] => none
  | c :: before =>
    if isBlank c then
      match Text.trim before.reverse with
      | [] => some noResult
      | type => some type
    else none

def prototype? (line : Text) : Option Declaration :=
  ((Text.after? ['('] (line.dropWhile isSignaturePart)).bind (Text.before? ");".toList)).bind
    fun parameters =>
      let signature := Text.trimEnd (line.takeWhile isSignaturePart)
      let name := (signature.reverse.takeWhile isWordPart).reverse
      if name.isEmpty then none
      else (resultType? (signature.reverse.dropWhile isWordPart).reverse).map fun result =>
        .prototype result name parameters

/-- The declarations in lines, after those of a type whose body is still open. A complete type on a
line of its own also ends an open one. -/
def ofLines : (opened : List Text) → List Text → List Declaration
  | _, [] => []
  | opened, line :: rest =>
    let single := (typeName? line).isSome
    if opened.isEmpty && !opensBody line && !single then
      (prototype? line).toList ++ ofLines [] rest
    else
      let opened := if opened.isEmpty && !opensBody line then [] else opened ++ [line]
      if closesBody line || single then
        let content := if opened.isEmpty then line else List.intercalate [' '] opened
        (typedef? content).toList ++ ofLines [] rest
      else ofLines opened rest

def ofSource (source : Text) : List Declaration :=
  ((block? source).map fun block => ofLines [] (lines block)).getD []

end Declaration

end ScriptLens
