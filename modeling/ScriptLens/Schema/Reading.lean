import ScriptLens.Markup.Event
import ScriptLens.Schema.Entry

/-!
Reading a schema from its text. An entry is complete when it is closed; what has no name is passed
over. Each entry and each of its own properties has a key and the span of its opening tag.
-/

namespace ScriptLens

structure SchemaSpan where
  key : Text
  start : Nat
  stop : Nat
  deriving DecidableEq, Repr

structure SchemaText where
  keywords : List Keyword
  datatypes : List Datatype
  spans : List SchemaSpan
  deriving DecidableEq, Repr

namespace SchemaText

open Markup

def empty : SchemaText := ⟨[], [], []⟩

def withSpan (span : SchemaSpan) (rest : SchemaText) : SchemaText :=
  { rest with spans := span :: rest.spans }

def withEntry (entry : SchemaEntry) (rest : SchemaText) : SchemaText :=
  match entry with
  | .keyword k => { rest with keywords := k :: rest.keywords }
  | .datatype d => { rest with datatypes := d :: rest.datatypes }

def newEntry (tag : Tag) (name : Text) : SchemaEntry :=
  if tag.name = "keyword".toList then
    .keyword
      { name
        type := tag.value? "type".toList
        pseudo := tag.value? "pseudo".toList
        description := tag.value? "description".toList
        result := tag.value? "result".toList
        suffix := tag.value? "suffix".toList
        properties := []
        source? := none }
  else
    .datatype
      { name
        type := tag.value? "type".toList
        suffix := tag.value? "suffix".toList
        properties := [] }

def newImport (tag : Tag) : KeywordImport where
  source := (tag.value? "source".toList).getD []
  select := (tag.value? "select".toList).getD []
  target := []

def newProperty (tag : Tag) (name : Text) : SchemaProperty where
  name
  result := tag.value? "result".toList
  type := tag.value? "type".toList

def isEntryTag (name : Text) : Bool :=
  name = "keyword".toList || name = "datatype".toList

def isImportTag (name : Text) : Bool :=
  name = "import".toList

def isPropertyTag (name : Text) : Bool :=
  name = "property".toList

/-- What is known while reading: the entry that is open, and whether an import is open in it. -/
structure State where
  entry : Option SchemaEntry
  inImport : Bool

def spanOf? (state : State) (tag : Tag) : Option SchemaSpan :=
  (tag.value? "name".toList).bind fun name =>
    if isEntryTag tag.name then some ⟨name, tag.start, tag.stop⟩
    else if isPropertyTag tag.name && !state.inImport then
      state.entry.map fun entry => ⟨entry.name ++ '.' :: name, tag.start, tag.stop⟩
    else none

/-- A property inside an import tells the import's target. -/
def State.open (state : State) (tag : Tag) : State :=
  if isEntryTag tag.name then
    { state with entry := (tag.value? "name".toList).map (newEntry tag) }
  else if isImportTag tag.name then
    match state.entry with
    | some entry =>
      if entry.isKeyword then ⟨some (entry.setImport (newImport tag)), true⟩ else state
    | none => state
  else if isPropertyTag tag.name then
    match tag.value? "name".toList with
    | some name =>
      { state with
        entry := state.entry.map
          (if state.inImport then SchemaEntry.setTarget name
            else SchemaEntry.addProperty (newProperty tag name)) }
    | none => state
  else state

/-- Either closing tag completes the open entry. -/
def closedEntry? (state : State) (name : Text) : Option SchemaEntry :=
  if isEntryTag name then state.entry else none

def State.close (state : State) (name : Text) : State :=
  if isEntryTag name then { state with entry := none }
  else if isImportTag name then { state with inImport := false }
  else state

def ofEvents : State → List Event → SchemaText
  | _, [] => empty
  | state, .opened tag :: events =>
    let rest := ofEvents (state.open tag) events
    match spanOf? state tag with
    | some span => rest.withSpan span
    | none => rest
  | state, .closed name :: events =>
    let rest := ofEvents (state.close name) events
    match closedEntry? state name with
    | some entry => rest.withEntry entry
    | none => rest
  | state, .text _ :: events => ofEvents state events
  | state, .fault _ :: events => ofEvents state events

def ofText (t : Text) : SchemaText :=
  ofEvents ⟨none, false⟩ (scan t)

end SchemaText

end ScriptLens
