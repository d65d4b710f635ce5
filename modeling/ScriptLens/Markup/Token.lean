import ScriptLens.Markup.Cursor

/-!
The tokens of markup and a reader for each. What stands before and between elements is recognised
so that its faults are reported, but leaves nothing behind: it is all `Token.aside`.
-/

namespace ScriptLens.Markup

/-- An attribute as written: entities of its value are not decoded. -/
structure Attribute where
  name : Text
  quote : Char
  value : Text
  valueStart : Nat
  deriving DecidableEq, Repr

inductive Token where
  /-- The part `<name` of a tag, which began at `start`. -/
  | tagStart (name : Text) (start : Nat)
  | attribute (a : Attribute)
  | tagEnd
  | emptyTagEnd
  | closeTag (name : Text)
  | text (content : Text)
  | cdata (content : Text)
  | aside
  deriving DecidableEq, Repr

namespace Reader

/-- Between the parts of a declaration stands a space, unless the declaration ends. -/
def declarationGap : Reader Unit := do
  let s ← here
  match s.rest with
  | [] => pure ()
  | c :: _ =>
    if isSpace c then skipSpaces
    else if s.startsWith "?>".toList then pure ()
    else fail (.notSpace (leadByte c) s.offset)

def version : Reader Unit := do
  skipSpaces
  literal "version".toList
  equals
  let q ← quote
  literal "1.".toList
  let _ ← takeWhile isAsciiDigit
  char q

def isEncodingChar (c : Char) : Bool :=
  isAsciiLetter c || isAsciiDigit c || c == '.' || c == '-' || c == '_'

def encoding : Reader Unit := do
  equals
  let q ← quote
  let _ ← takeWhile isEncodingChar
  char q
  declarationGap

def standalone : Reader Unit := do
  equals
  let q ← quote
  let s ← here
  let value ← name
  if value = "yes".toList ∨ value = "no".toList then char q
  else fail (.missing ["yes".toList, "no".toList] s.offset)

def announced (keyword : Text) (r : Reader Unit) : Reader Unit := do
  let found ← optional keyword
  if found then r else pure ()

def declaration : Reader Unit := do
  literal "<?xml ".toList
  version
  declarationGap
  announced "encoding".toList encoding
  announced "standalone".toList standalone
  skipSpaces
  literal "?>".toList

def comment : Reader Unit := do
  literal "<!--".toList
  let content ← charsUntil (Text.startsWith "-->".toList)
  literal "-->".toList
  if Text.contains "--".toList content then fail .dashesInComment
  else if Text.endsWith ['-'] content then fail .dashBeforeCommentEnd
  else pure ()

def instruction : Reader Unit := do
  literal "<?".toList
  let _ ← name
  skipSpaces
  let _ ← charsUntil (Text.startsWith "?>".toList)
  literal "?>".toList

def spacedLiteral : Reader Unit := do
  spaces
  let _ ← quotedBytes

/-- Whether an external identifier was there. -/
def externalId : Reader Bool := do
  let isSystem ← optional "SYSTEM".toList
  if isSystem then
    spacedLiteral
    pure true
  else
    let isPublic ← optional "PUBLIC".toList
    if isPublic then
      spacedLiteral
      spacedLiteral
      pure true
    else pure false

/-- Whether declarations follow between brackets. -/
def doctype : Reader Bool := do
  literal "<!DOCTYPE".toList
  spaces
  let _ ← name
  skipSpaces
  let _ ← externalId
  skipSpaces
  let c ← one (fun c => c == '[' || c == '>') (.unexpected ['[', '>'])
  pure (c == '[')

def doctypeEnd : Reader Unit := do
  literal "]".toList
  skipSpaces
  char '>'

/-- The declarations other than entities are not looked into. -/
def opaqueDeclaration : Reader Unit := do
  let _ ← takeWhile (· != '>')
  char '>'

def unparsedEntity : Reader Unit := do
  spaces
  let _ ← nameOrEnd

def externalEntity (general : Bool) : Reader Unit := do
  let found ← externalId
  if found then
    if general then
      skipSpaces
      announced "NDATA".toList unparsedEntity
    else pure ()
  else fail .badExternalId

def entityDefinition (general : Bool) : Reader Unit := do
  let s ← here
  match s.rest with
  | [] => fail .endOfText
  | c :: _ =>
    if isQuote c then
      let _ ← quotedBytes
    else if c == 'S' || c == 'P' then externalEntity general
    else fail (.unexpected ['"', '\'', 'S', 'P'] (leadByte c) s.offset)

def parameterMark : Reader Bool := do
  let parameter ← optional "%".toList
  if parameter then
    spaces
    pure true
  else pure false

def entity : Reader Unit := do
  literal "<!ENTITY".toList
  spaces
  let parameter ← parameterMark
  let _ ← name
  spaces
  entityDefinition (!parameter)
  skipSpaces
  char '>'

def cdata : Reader Text := do
  literal "<![CDATA[".toList
  let content ← charsUntil (Text.startsWith "]]>".toList)
  literal "]]>".toList
  pure content

def tagStart : Reader Token := do
  let s ← here
  literal "<".toList
  let tag ← qualifiedName
  pure (.tagStart tag s.offset)

def closeTag : Reader Token := do
  literal "</".toList
  let tag ← qualifiedName
  skipSpaces
  char '>'
  pure (.closeTag tag)

/-- A value ends at its quote; a `<` before that is a fault. -/
def endsValue (q : Char) : Text → Bool
  | [] => false
  | c :: _ => c == q || c == '<'

def attributePart : Reader Token := do
  let key ← qualifiedName
  equals
  let q ← quote
  let s ← here
  let value ← charsUntil (endsValue q)
  char q
  pure (.attribute { name := key, quote := q, value := value, valueStart := s.offset })

def emptyTagEnd : Reader Token := do
  char '/'
  char '>'
  pure .emptyTagEnd

def tagEnd : Reader Token := do
  char '>'
  pure .tagEnd

/-- The next part of a tag; an attribute must have a space before it. -/
def tagPart : Reader Token := do
  let start ← here
  skipSpaces
  let s ← here
  match s.rest with
  | [] => if start.rest.head?.any isSpace then attributePart else fail .endOfText
  | c :: _ =>
    if c == '/' then emptyTagEnd
    else if c == '>' then tagEnd
    else if start.rest.head?.any isSpace then attributePart
    else fail (.notSpace (leadByte c) start.offset)

def atTag : Text → Bool
  | [] => false
  | c :: _ => c == '<'

def text : Reader Token := do
  let content ← charsUntil atTag
  if Text.contains "]]>".toList content then fail .sectionEndInText else pure (.text content)

end Reader

namespace Reads

open Reader

variable {α : Type}

theorem ite {c : Prop} [Decidable c] {r r' : Reader α} (h : Reads r) (h' : Reads r') :
    Reads (if c then r else r') := by
  split
  · exact h
  · exact h'

theorem declarationGap : Reads Reader.declarationGap :=
  here.bind fun s => by
    split
    · exact .pure _
    · exact .ite skipSpaces (.ite (.pure _) (.fail _))

theorem version : Reads Reader.version :=
  skipSpaces.bind fun _ => (literal _).bind fun _ => equals.bind fun _ => quote.bind fun _ =>
    (literal _).bind fun _ => (takeWhile _).bind fun _ => char _

theorem encoding : Reads Reader.encoding :=
  equals.bind fun _ => quote.bind fun _ => (takeWhile _).bind fun _ => (char _).bind fun _ =>
    declarationGap

theorem standalone : Reads Reader.standalone :=
  equals.bind fun _ => quote.bind fun _ => here.bind fun _ => name.bind fun _ =>
    .ite (char _) (.fail _)

theorem announced {keyword : Text} {r : Reader Unit} (h : Reads r) :
    Reads (Reader.announced keyword r) :=
  (optional _).bind fun _ => .ite h (.pure _)

theorem spacedLiteral : Reads Reader.spacedLiteral :=
  spaces.bind fun _ => quotedBytes.bind fun _ => .pure _

theorem externalId : Reads Reader.externalId :=
  (optional _).bind fun _ => .ite (spacedLiteral.bind fun _ => .pure _)
    ((optional _).bind fun _ =>
      .ite (spacedLiteral.bind fun _ => spacedLiteral.bind fun _ => .pure _) (.pure _))

theorem unparsedEntity : Reads Reader.unparsedEntity :=
  spaces.bind fun _ => nameOrEnd.bind fun _ => .pure _

theorem externalEntity (general : Bool) : Reads (Reader.externalEntity general) :=
  externalId.bind fun _ =>
    .ite (.ite (skipSpaces.bind fun _ => announced unparsedEntity) (.pure _)) (.fail _)

theorem parameterMark : Reads Reader.parameterMark :=
  (optional _).bind fun _ => .ite (spaces.bind fun _ => .pure _) (.pure _)

theorem entityDefinition (general : Bool) : Reads (Reader.entityDefinition general) :=
  here.bind fun s => by
    split
    · exact .fail _
    · exact .ite (quotedBytes.bind fun _ => .pure _) (.ite (externalEntity _) (.fail _))

theorem text : Reads Reader.text :=
  (charsUntil _).bind fun _ => .ite (.fail _) (.pure _)

end Reads

namespace Consumes

open Reader

theorem equals : Consumes Reader.equals :=
  Reads.skipSpaces.bind_consumes fun _ => (char _).bind fun _ => Reads.skipSpaces

theorem declaration : Consumes Reader.declaration :=
  (literal (by decide)).bind fun _ => Reads.version.bind fun _ => Reads.declarationGap.bind fun _ =>
    (Reads.announced .encoding).bind fun _ => (Reads.announced .standalone).bind fun _ =>
      Reads.skipSpaces.bind fun _ => .literal _

theorem comment : Consumes Reader.comment :=
  (literal (by decide)).bind fun _ => (Reads.charsUntil _).bind fun _ =>
    (Reads.literal _).bind fun _ => .ite (.fail _) (.ite (.fail _) (.pure _))

theorem instruction : Consumes Reader.instruction :=
  (literal (by decide)).bind fun _ => Reads.name.bind fun _ => Reads.skipSpaces.bind fun _ =>
    (Reads.charsUntil _).bind fun _ => .literal _

theorem doctype : Consumes Reader.doctype :=
  (literal (by decide)).bind fun _ => Reads.spaces.bind fun _ => Reads.name.bind fun _ =>
    Reads.skipSpaces.bind fun _ => Reads.externalId.bind fun _ => Reads.skipSpaces.bind fun _ =>
      (Reads.one _ _).bind fun _ => .pure _

theorem doctypeEnd : Consumes Reader.doctypeEnd :=
  (literal (by decide)).bind fun _ => Reads.skipSpaces.bind fun _ => .char _

theorem opaqueDeclaration : Consumes Reader.opaqueDeclaration :=
  (Reads.takeWhile _).bind_consumes fun _ => char _

theorem entity : Consumes Reader.entity :=
  (literal (by decide)).bind fun _ => Reads.spaces.bind fun _ => Reads.parameterMark.bind fun _ =>
    Reads.name.bind fun _ => Reads.spaces.bind fun _ =>
      (Reads.entityDefinition _).bind fun _ => Reads.skipSpaces.bind fun _ => .char _

theorem cdata : Consumes Reader.cdata :=
  (literal (by decide)).bind fun _ => (Reads.charsUntil _).bind fun _ =>
    (Reads.literal _).bind fun _ => .pure _

theorem tagStart : Consumes Reader.tagStart :=
  Reads.here.bind_consumes fun _ => (literal (by decide)).bind fun _ =>
    Reads.qualifiedName.bind fun _ => .pure _

theorem closeTag : Consumes Reader.closeTag :=
  (literal (by decide)).bind fun _ => Reads.qualifiedName.bind fun _ =>
    Reads.skipSpaces.bind fun _ => (Reads.char _).bind fun _ => .pure _

theorem attributePart : Consumes Reader.attributePart :=
  Reads.qualifiedName.bind_consumes fun _ => equals.bind fun _ => Reads.quote.bind fun _ =>
    Reads.here.bind fun _ => (Reads.charsUntil _).bind fun _ => (Reads.char _).bind fun _ => .pure _

theorem fail {α : Type} (cause : Cause) : Consumes (Reader.fail cause : Reader α) := by
  intro s a s' h
  cases h

theorem ite {α : Type} {c : Prop} [Decidable c] {r r' : Reader α} (h : Consumes r)
    (h' : Consumes r') : Consumes (if c then r else r') := by
  split
  · exact h
  · exact h'

theorem emptyTagEnd : Consumes Reader.emptyTagEnd :=
  (char _).bind fun _ => (Reads.char _).bind fun _ => .pure _

theorem tagEnd : Consumes Reader.tagEnd :=
  (char _).bind fun _ => .pure _

theorem tagPart : Consumes Reader.tagPart :=
  Reads.here.bind_consumes fun _ => Reads.skipSpaces.bind_consumes fun _ =>
    Reads.here.bind_consumes fun s => by
      split
      · exact .ite attributePart (.fail _)
      · exact .ite emptyTagEnd (.ite tagEnd (.ite attributePart (.fail _)))

end Consumes

end ScriptLens.Markup
