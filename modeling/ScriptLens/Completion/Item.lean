import ScriptLens.Foreign.Index
import ScriptLens.Types.Expansion

/-! Completion items, as an editor lists them. -/

namespace ScriptLens

inductive CompletionKind where
  | property
  | function
  deriving DecidableEq, Repr

structure CompletionItem where
  label : Text
  kind : CompletionKind
  detail : Text
  /-- What to show beside the item, in Markdown. -/
  documentation : Option Text
  deriving DecidableEq, Repr

def Candidates.items (candidates : Candidates) : List CompletionItem :=
  candidates.entries.map fun (label, detail) =>
    { label, kind := .property, detail, documentation := none }

namespace ForeignIndex

def itemDetail : Text := "EGOSOFT Lua Function".toList

def items (index : ForeignIndex) : List CompletionItem :=
  index.functions.entries.map fun (label, description) =>
    { label, kind := .function, detail := itemDetail, documentation := some description }

end ForeignIndex

end ScriptLens
