import ScriptLens.Document
import ScriptLens.OrderedMap
import ScriptLens.Script.Dialect
import ScriptLens.Script.Variable

/-!
The variables of each document, grouped by kind and then by name without sigil, with the locations
of each in the order they were recorded.
-/

namespace ScriptLens

/-- A name without its sigil; only one is dropped. -/
def bareName : Text → Text
  | c :: t => if c = '$' || c = '@' then t else c :: t
  | [] => []

abbrev NameGroups := OrderedMap Text (List Location)

structure VariableTable where
  dialect : Dialect
  groups : OrderedMap VariableKind NameGroups
  deriving DecidableEq

structure VariableMatch where
  name : Text
  kind : VariableKind
  dialect : Dialect
  location : Location
  locations : List Location
  deriving DecidableEq, Repr

namespace VariableTable

def new (dialect : Dialect) : VariableTable := ⟨dialect, ∅⟩

def record (table : VariableTable) (kind : VariableKind) (name : Text) (location : Location) :
    VariableTable :=
  { table with
    groups := table.groups.alter kind fun names =>
      (names.getD ∅).alter (bareName name) fun locations => locations.getD [] ++ [location] }

def isEmpty (table : VariableTable) : Bool :=
  table.groups.values.all OrderedMap.isEmpty

def locations (table : VariableTable) (kind : VariableKind) (name : Text) : List Location :=
  ((table.groups.get? kind).bind fun names => names.get? (bareName name)).getD []

/-- The first group, in the order of kinds and names, with a location at the position. -/
def lookup? (table : VariableTable) (p : Position) : Option VariableMatch :=
  table.groups.entries.findSome? fun (kind, names) =>
    names.entries.findSome? fun (name, locations) =>
      (locations.find? (·.range.contains p)).map fun location =>
        { name, kind, dialect := table.dialect, location, locations }

/-- Moves the locations of a variable to a new name, in the place of what that name had. -/
def renameIn (names : NameGroups) (old new : Text) : NameGroups :=
  match names.get? (bareName old) with
  | some locations => (names.erase (bareName old)).insert (bareName new) locations
  | none => names

def rename (table : VariableTable) (kind : VariableKind) (old new : Text) : VariableTable :=
  match table.groups.get? kind with
  | some names => { table with groups := table.groups.insert kind (renameIn names old new) }
  | none => table

end VariableTable

abbrev VariableTracker := OrderedMap Text VariableTable

namespace VariableTracker

def replace (tracker : VariableTracker) (uri : Text) (table : VariableTable) : VariableTracker :=
  tracker.insert uri table

def lookup? (tracker : VariableTracker) (uri : Text) (p : Position) : Option VariableMatch :=
  (tracker.get? uri).bind (·.lookup? p)

def locations (tracker : VariableTracker) (uri : Text) (kind : VariableKind) (name : Text) :
    List Location :=
  ((tracker.get? uri).map (·.locations kind name)).getD []

def rename (tracker : VariableTracker) (uri : Text) (kind : VariableKind) (old new : Text) :
    VariableTracker :=
  match tracker.get? uri with
  | some table => tracker.insert uri (table.rename kind old new)
  | none => tracker

def clear (tracker : VariableTracker) (uri : Text) : VariableTracker :=
  tracker.erase uri

end VariableTracker

end ScriptLens
