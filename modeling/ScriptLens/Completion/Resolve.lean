import ScriptLens.Completion.Path
import ScriptLens.Types.Expansion

/-! The candidates that complete a path. -/

namespace ScriptLens

namespace TypeRegistry

def ofPrevious (registry : TypeRegistry) (type : Text) : Candidates :=
  match registry.get? type with
  | none => ∅
  | some entry =>
    entry.properties.entries.foldl (fun candidates (property, propertyType) =>
      registry.expandProperty [] type property propertyType candidates 0) ∅

/-- The literals of a type, each with the brace that closes the reference to it. -/
def literalCandidates (registry : TypeRegistry) (type : Text) : Candidates :=
  match registry.get? type with
  | none => ∅
  | some entry =>
    entry.literals.foldl (fun candidates literal =>
      let label := literal ++ ['\x7d']
      if candidates.contains label then candidates else candidates.insert label label) ∅

def byName (registry : TypeRegistry) (fragment : Text) (candidates : Candidates) : Candidates :=
  (registry.keys.filter (Text.startsWith fragment)).foldl (fun candidates name =>
    registry.expandType [] name candidates 0) candidates

def leastFragment : Nat := 2

/-- A path is completed by the properties of its previous segment; without one, or after an opening
brace, the fragment itself is completed, and literals come first. -/
def resolve (registry : TypeRegistry) (context : PathContext) : Candidates :=
  match context.previous with
  | [] =>
    if context.current.length < leastFragment then ∅ else registry.byName context.current ∅
  | c :: type =>
    if c = '\x7b' then registry.byName context.current (registry.literalCandidates type)
    else registry.ofPrevious (c :: type)

end TypeRegistry

end ScriptLens
