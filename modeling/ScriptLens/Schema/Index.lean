import ScriptLens.Document
import ScriptLens.FileTree
import ScriptLens.Schema.Reading
import ScriptLens.Schema.Selector
import ScriptLens.Types.Registry

/-!
The index of a schema: its entries, the types that completion uses, and where each name is defined.
Names are registered as they appear inside attributes, with their angle brackets as entities.
-/

namespace ScriptLens

structure SchemaIndex where
  schema : Schema
  registry : TypeRegistry
  locations : OrderedMap Text Location
  deriving DecidableEq

namespace SchemaIndex

open Markup

def empty : SchemaIndex := ⟨.empty, ∅, ∅⟩

def declareProperties (key : Text) (properties : List SchemaProperty) (registry : TypeRegistry) :
    TypeRegistry :=
  properties.foldl (fun registry p => registry.declareProperty key p.name p.type) registry

def declareLiterals (key : Text) (literals : List Text) (registry : TypeRegistry) : TypeRegistry :=
  literals.foldl (fun registry literal => registry.declareLiteral key literal) registry

/-- A keyword with an import has the imported literals, unless the import fails; any other keyword
has its properties. -/
def declareKeyword (literals? : KeywordImport → Option (List Text)) (registry : TypeRegistry)
    (k : Keyword) : TypeRegistry :=
  let key := escapeAngles k.name
  match k.source? with
  | some source =>
    declareLiterals key (((literals? source).getD []).map escapeAngles) registry
  | none => declareProperties key k.properties registry

/-- A datatype without properties is no type to complete. -/
def declareDatatype (registry : TypeRegistry) (d : Datatype) : TypeRegistry :=
  if d.properties.isEmpty then registry
  else
    let key := escapeAngles d.name
    declareProperties key d.properties (registry.declareType key d.type)

def booleanLiterals : List Text := ["==true".toList, "==false".toList]

def registryOf (literals? : KeywordImport → Option (List Text)) (t : SchemaText) : TypeRegistry :=
  let keywords := t.keywords.foldl (declareKeyword literals?) ∅
  declareLiterals "boolean".toList booleanLiterals (t.datatypes.foldl declareDatatype keywords)

/-- Of several definitions with one key the last counts. -/
def locationsOf (uri : Text) (source : Text) (spans : List SchemaSpan) : OrderedMap Text Location :=
  let document : Document := ⟨source, .markup⟩
  .ofList (spans.map fun span =>
    (escapeAngles span.key, ⟨uri, document.rangeOf span.start span.stop⟩))

/-- Without an address of its text a schema has no locations. -/
def build (t : SchemaText) (uri : Option Text) (source : Text)
    (literals? : KeywordImport → Option (List Text)) : SchemaIndex where
  schema := ⟨t.keywords, t.datatypes⟩
  registry := registryOf literals? t
  locations := (uri.map fun uri => locationsOf uri source t.spans).getD ∅

/-- The literals that an import names below the folder of the libraries. A selector that cannot be
read selects nothing; a missing file or a fault in it fails the import. -/
def importedLiterals? (tree : FileTree) (libraries : Text) (source : KeywordImport) :
    Option (List Text) :=
  (tree.read? (Path.join libraries source.source)).bind fun t =>
    match Selector.ofText? source.select with
    | none => some []
    | some selector => (Element.values selector source.target t).toOption

/-- Reads a schema and what it imports; none if there is no schema to read. -/
def load? (tree : FileTree) (path libraries : Text) : Option SchemaIndex :=
  (tree.read? path).map fun source =>
    build (.ofText source) (Path.fileUri? path) source (importedLiterals? tree libraries)

end SchemaIndex

end ScriptLens
