import ScriptLens.Json.Number

/-! JSON values, in which clients send settings. -/

namespace ScriptLens

inductive Json where
  | null
  | bool (b : Bool)
  | number (n : Json.Number)
  | string (t : Text)
  | array (items : List Json)
  /-- The members of an object; no key is repeated. -/
  | object (members : List (Text × Json))

end ScriptLens
