import ScriptLens.Markup.Event

/-! The dialect of a script is told by its first element. -/

namespace ScriptLens

inductive Dialect where
  | aiScript
  | missionDirector
  deriving DecidableEq, Repr

namespace Dialect

def ofRoot? (name : Text) : Option Dialect :=
  if name = "aiscript".toList then some .aiScript
  else if name = "mdscript".toList then some .missionDirector
  else none

def label : Dialect → Text
  | .aiScript => "AI Script".toList
  | .missionDirector => "Mission Director Script".toList

/-- A fault before the first element leaves the dialect unknown. -/
def ofEvents? : List Markup.Event → Option Dialect
  | [] => none
  | .opened tag :: _ => ofRoot? tag.name
  | .fault _ :: _ => none
  | .closed _ :: rest => ofEvents? rest
  | .text _ :: rest => ofEvents? rest

def detect? (document : Text) : Option Dialect :=
  ofEvents? (Markup.scan document)

end Dialect

end ScriptLens
