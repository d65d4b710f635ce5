import ScriptLens.OrderedMap
import ScriptLens.Text.Basic

/-!
The types that scripts can name, with their properties, supertypes and literals. An entry comes
into being when any of the three is declared for its name.
-/

namespace ScriptLens

structure TypeEntry where
  /-- The declared type of each property, empty if it has none. -/
  properties : OrderedMap Text Text
  supertype : Option Text
  literals : List Text
  deriving DecidableEq

namespace TypeEntry

def new : TypeEntry := ⟨∅, none, []⟩

/-- A later declaration of a property gives it a new type in its old place. -/
def addProperty (entry : TypeEntry) (property type : Text) : TypeEntry :=
  { entry with properties := entry.properties.insert property type }

def addLiteral (entry : TypeEntry) (literal : Text) : TypeEntry :=
  { entry with
    literals := if literal ∈ entry.literals then entry.literals else entry.literals ++ [literal] }

/-- The type at the root of all others, which is no supertype worth following. -/
def baseType : Text := "datatype".toList

def setSupertype (entry : TypeEntry) (supertype : Option Text) : TypeEntry :=
  match supertype with
  | some name => if name = baseType then entry else { entry with supertype := some name }
  | none => entry

end TypeEntry

abbrev TypeRegistry := OrderedMap Text TypeEntry

namespace TypeRegistry

def change (registry : TypeRegistry) (name : Text) (f : TypeEntry → TypeEntry) : TypeRegistry :=
  registry.alter name fun entry => f (entry.getD .new)

def declareType (registry : TypeRegistry) (name : Text) (supertype : Option Text) : TypeRegistry :=
  registry.change name (·.setSupertype supertype)

def declareLiteral (registry : TypeRegistry) (name literal : Text) : TypeRegistry :=
  registry.change name (·.addLiteral literal)

def declareProperty (registry : TypeRegistry) (name property : Text) (type : Option Text) :
    TypeRegistry :=
  registry.change name (·.addProperty property (type.getD []))

end TypeRegistry

end ScriptLens
