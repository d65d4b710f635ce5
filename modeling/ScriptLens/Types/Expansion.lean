import ScriptLens.Markup.Entity
import ScriptLens.Types.Registry

/-!
Expansion of types into dotted completion labels. Types refer to one another in circles, so an
expansion goes down a bounded number of levels and stops when it has collected enough labels.
-/

namespace ScriptLens

def isPrimitive (name : Text) : Bool :=
  ["".toList, "boolean".toList, "int".toList, "string".toList, "list".toList,
    TypeEntry.baseType].contains name

/-- Labels with their details, in the order in which they were found. -/
abbrev Candidates := OrderedMap Text Text

namespace Candidates

def limit : Nat := 1000

def isFull (candidates : Candidates) : Bool :=
  limit ≤ candidates.size

/-- The first detail of a label stays. -/
def add (candidates : Candidates) (label detail : Text) : Candidates :=
  if isPrimitive label || candidates.contains label || candidates.isFull then candidates
  else candidates.insert label detail

end Candidates

namespace TypeRegistry

def propertyLabel (path property : Text) : Text :=
  if path.isEmpty then property else path ++ '.' :: Markup.escapeAngles property

/-- Depths count up to one; from there on no type is expanded. -/
def levels (depth : Int) : Nat :=
  (2 - depth).toNat

/-- A type below a path is itself a candidate unless it was reached from far above. -/
def showsType (path : Text) (levels : Nat) : Bool :=
  !path.isEmpty && levels ≤ 2

/-- Adds the labels of a type below a path. The supertype's labels stand below the type's own name,
and properties go down two levels: one for themselves and one for their types. -/
def expandLevels (registry : TypeRegistry) : (levels : Nat) → (path type : Text) → Candidates →
    Candidates
  | 0, _, _, candidates => candidates
  | n + 1, path, type, candidates =>
    if isPrimitive type then candidates
    else match registry.get? type with
    | none => candidates
    | some entry =>
      let shown := if showsType path (n + 1) then candidates.add type type else candidates
      if shown.isFull then shown
      else
        let expanded := entry.properties.entries.foldl (fun candidates (property, propertyType) =>
          if isPrimitive property then candidates
          else
            let label := propertyLabel path property
            let added := candidates.add label (type ++ '.' :: property)
            match n with
            | 0 => added
            | m + 1 => expandLevels registry m label propertyType added) shown
        match entry.supertype with
        | none => expanded
        | some supertype => expandLevels registry n type supertype expanded

def expandType (registry : TypeRegistry) (path type : Text) (candidates : Candidates)
    (depth : Int) : Candidates :=
  registry.expandLevels (levels depth) path type candidates

def expandProperty (registry : TypeRegistry) (path type property propertyType : Text)
    (candidates : Candidates) (depth : Int) : Candidates :=
  if isPrimitive property || isPrimitive type then candidates
  else
    let label := propertyLabel path property
    registry.expandType label propertyType (candidates.add label (type ++ '.' :: property))
      (depth + 1)

end TypeRegistry

end ScriptLens
