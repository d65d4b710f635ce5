import ScriptLens.Markup.Entity
import ScriptLens.Schema.Entry
import ScriptLens.Script.VariableTable
import ScriptLens.Text.Lowercase

/-!
What a schema says about the word under a cursor. A path is walked from an entry through the
properties it names; besides, every property that the word could mean is listed. A path for which
there is nothing to say is tried again without its first segment.
-/

namespace ScriptLens

/-- A word, and the segments of the path that ends with it. -/
structure HoverTarget where
  word : Text
  parts : List Text
  deriving DecidableEq, Repr

namespace HoverTarget

def isWordChar (c : Char) : Bool :=
  isAlphanumeric c || c == '_'

def isPathChar (c : Char) : Bool :=
  isWordChar c || c == '.' || c == '$' || c == '@' || c == '\x7b' || c == '\x7d'

def at? (line : Text) (column : Nat) : Option HoverTarget :=
  (runAt isWordChar line column).bind fun word =>
    (runAt isPathChar line column).map fun path =>
      { word := word.body
        parts := Text.fields '.' ((word.before ++ word.body).drop path.before.length) }

end HoverTarget

namespace Schema

/-- Whether the last segment of a path could mean a property: as a part of its name, or as the
placeholder in it, in any case. -/
def mentions (part : Text) (p : SchemaProperty) : Bool :=
  Text.contains part p.name ||
    Text.contains (['\x7b', '$'] ++ part.toLowercase ++ ['\x7d']) (Text.toLowercase p.name)

def propertiesOf (schema : Schema) (type : Text) : List SchemaProperty :=
  ((schema.datatype? type).map (·.properties)).getD []

/-- The properties of a name, or if there is none, those of the name in the types of the others. -/
def named (schema : Schema) (properties : List SchemaProperty) (part : Text) :
    List SchemaProperty :=
  match properties.filter (·.name = part) with
  | [] => ((properties.filterMap (·.type)).flatMap schema.propertiesOf).filter (·.name = part)
  | found => found

/-- The properties that the next segment is looked up in: those of the type of the last property
that has both a result and a type. -/
def following (schema : Schema) (found current : List SchemaProperty) : List SchemaProperty :=
  found.foldl (fun current p =>
    match p.result, p.type with
    | some _, some type => schema.propertiesOf type
    | _, _ => current) current

def propertyLine (path : Text) (p : SchemaProperty) : Option Text :=
  p.result.map fun result => "- ".toList ++ path ++ '.' :: p.name ++ ": ".toList ++ result

/-- The lines of a path below an entry. A segment that is not found ends the walk, since nothing
follows it. -/
def walkLines (schema : Schema) : (path : Text) → (current : List SchemaProperty) → List Text →
    List Text
  | _, _, [] => []
  | path, current, part :: rest =>
    match if rest.isEmpty then current.filter (mentions part) else schema.named current part with
    | [] => walkLines schema path [] rest
    | found =>
      found.filterMap (propertyLine path) ++
        walkLines schema (path ++ '.' :: part) (schema.following found current) rest

def details : SchemaEntry → List (Text × Text)
  | .keyword k =>
    [("Description".toList, k.description), ("Pseudo".toList, k.pseudo),
      ("Result".toList, k.result), ("Suffix".toList, k.suffix)].filterMap fun (label, value) =>
        value.map (label, ·)
  | .datatype d => d.suffix.toList.map ("Suffix".toList, ·)

/-- The text for a path that starts with an entry; empty if no segment after it has a line. -/
def pathText (schema : Schema) (entry : SchemaEntry) (parts : List Text) : Text :=
  match schema.walkLines entry.name entry.properties (parts.drop 1) with
  | [] => []
  | lines =>
    Markup.escapeAngles
      ("Keyword: ".toList ++ entry.name ++ '\n' ::
        (details entry).flatMap (fun (label, value) =>
          '\n' :: label ++ ": ".toList ++ value ++ ['\n']) ++
        lines.flatMap fun line => '\n' :: '\n' :: line)

def mentioned (word name : Text) (properties : List SchemaProperty) : Bool :=
  Text.contains word name || properties.any fun p => Text.contains word p.name

/-- The lines of an entry for a word: all of them if the word is the entry's name. -/
def wordLines (word name : Text) (properties : List SchemaProperty) : List Text :=
  (properties.filter fun p => name = word || Text.contains word p.name).filterMap
    (propertyLine name)

def bar : Text := " | ".toList

def labelled (before : Text) (values : List Text) (after : Text) : Text :=
  match Text.sortedDistinct values with
  | [] => []
  | values => before ++ List.intercalate bar values ++ after

/-- The section of all entries of one name; none if they have no line for the word. -/
def nameSection? (word name : Text) (keywords : List Keyword) (datatypes : List Datatype) :
    Option Text :=
  match Text.sortedDistinct
      (keywords.flatMap (fun k => wordLines word name k.properties) ++
        datatypes.flatMap fun d => wordLines word name d.properties) with
  | [] => none
  | lines => some
    (name ++
      labelled ": ".toList (keywords.filterMap (·.description)) [] ++
      labelled " (type: ".toList
        (keywords.filterMap (·.type) ++ datatypes.filterMap (·.type)) [')'] ++
      labelled " (pseudo: ".toList (keywords.filterMap (·.pseudo)) [')'] ++
      labelled " (suffix: ".toList (datatypes.filterMap (·.suffix)) [')'] ++
      '\n' :: List.intercalate ['\n'] lines)

def sections (schema : Schema) (word : Text) : List Text :=
  let keywords := schema.keywords.filter fun k => mentioned word k.name k.properties
  let datatypes := schema.datatypes.filter fun d => mentioned word d.name d.properties
  (Text.sortedDistinct (keywords.map (·.name) ++ datatypes.map (·.name))).filterMap fun name =>
    nameSection? word name (keywords.filter (·.name = name)) (datatypes.filter (·.name = name))

def wordText (schema : Schema) (word : Text) : Text :=
  if word.isEmpty then []
  else match schema.sections word with
    | [] => []
    | sections =>
      "\n\nMatches for '".toList ++ word ++ "':\n\n".toList ++
        Markup.escapeAngles (List.intercalate ['\n', '\n'] sections)

/-- The text for one path. Its first segment starts a walk unless it is the word itself. -/
def composed (schema : Schema) (word : Text) (parts : List Text) : Text :=
  let entry := (parts.head?.map bareName).bind fun first =>
    if first = word then none else schema.entry? first
  (entry.map fun entry => schema.pathText entry parts).getD [] ++ schema.wordText word

/-- Drops segments from the front until there is something to say. -/
def firstText? (schema : Schema) (word : Text) : List Text → Option Text
  | [] => none
  | part :: rest =>
    match schema.composed word (part :: rest) with
    | [] => firstText? schema word rest
    | text => some text

def hover? (schema : Schema) (target : HoverTarget) : Option Text :=
  if target.word.isEmpty then none else schema.firstText? target.word target.parts

end Schema

end ScriptLens
