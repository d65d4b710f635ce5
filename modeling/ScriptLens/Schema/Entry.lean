import ScriptLens.Text.Basic

/-! The entries of a schema: keywords, which expressions start from, and the datatypes of values. -/

namespace ScriptLens

structure SchemaProperty where
  name : Text
  result : Option Text
  type : Option Text
  deriving DecidableEq, Repr

/-- Where a keyword takes its literals from: the attribute `target` of the elements that `select`
picks out of the file `source`. -/
structure KeywordImport where
  source : Text
  select : Text
  target : Text
  deriving DecidableEq, Repr

structure Keyword where
  name : Text
  type : Option Text
  pseudo : Option Text
  description : Option Text
  result : Option Text
  suffix : Option Text
  properties : List SchemaProperty
  source? : Option KeywordImport
  deriving DecidableEq, Repr

structure Datatype where
  name : Text
  type : Option Text
  suffix : Option Text
  properties : List SchemaProperty
  deriving DecidableEq, Repr

inductive SchemaEntry where
  | keyword (k : Keyword)
  | datatype (d : Datatype)
  deriving DecidableEq, Repr

namespace SchemaEntry

def name : SchemaEntry → Text
  | .keyword k => k.name
  | .datatype d => d.name

def properties : SchemaEntry → List SchemaProperty
  | .keyword k => k.properties
  | .datatype d => d.properties

def addProperty (p : SchemaProperty) : SchemaEntry → SchemaEntry
  | .keyword k => .keyword { k with properties := k.properties ++ [p] }
  | .datatype d => .datatype { d with properties := d.properties ++ [p] }

/-- Only a keyword takes its literals from elsewhere. -/
def setImport (source : KeywordImport) : SchemaEntry → SchemaEntry
  | .keyword k => .keyword { k with source? := some source }
  | .datatype d => .datatype d

def setTarget (target : Text) : SchemaEntry → SchemaEntry
  | .keyword k => .keyword { k with source? := k.source?.map fun s => { s with target } }
  | .datatype d => .datatype d

def isKeyword : SchemaEntry → Bool
  | .keyword _ => true
  | .datatype _ => false

end SchemaEntry

structure Schema where
  keywords : List Keyword
  datatypes : List Datatype
  deriving DecidableEq, Repr

namespace Schema

def empty : Schema := ⟨[], []⟩

/-- Of several entries with one name the first counts. -/
def keyword? (schema : Schema) (name : Text) : Option Keyword :=
  schema.keywords.find? (·.name = name)

def datatype? (schema : Schema) (name : Text) : Option Datatype :=
  schema.datatypes.find? (·.name = name)

/-- The entry that a path may start from: a keyword with properties of its own, else a datatype. -/
def entry? (schema : Schema) (name : Text) : Option SchemaEntry :=
  match (schema.keyword? name).filter (·.source?.isNone) with
  | some k => some (.keyword k)
  | none => (schema.datatype? name).map .datatype

end Schema

end ScriptLens
