import ScriptLens.Text.Numeral

/-!
Entities: characters of attribute values and texts that are written by name or by number. Decoding
leaves alone whatever is not a known entity, so it is total; each `&` is looked at once.
-/

namespace ScriptLens.Markup

def ofNumber? (n : Nat) : Option Char :=
  if n.isValidChar then some (Char.ofNat n) else none

def numbered? (entity : Text) : Option Char :=
  ((Text.after? "#x".toList entity).bind Text.hex? <|>
    (Text.after? "#".toList entity).bind Text.decimal?).bind ofNumber?

def entity? (entity : Text) : Option Char :=
  if entity = "lt".toList then some '<'
  else if entity = "gt".toList then some '>'
  else if entity = "amp".toList then some '&'
  else if entity = "quot".toList then some '"'
  else if entity = "apos".toList then some '\''
  else numbered? entity

/-- The character of the entity that a text begins with, given what follows the `&`. -/
def leadingEntity? (t : Text) : Option (Char × Text) :=
  (Text.splitFirst? (· == ';') t).bind fun (entity, rest) =>
    (entity? entity).map fun c => (c, rest)

theorem length_of_leadingEntity? {t rest : Text} {c : Char}
    (h : leadingEntity? t = some (c, rest)) : rest.length < t.length := by
  obtain ⟨⟨entity, after⟩, hs, he⟩ := Option.bind_eq_some_iff.1 h
  obtain ⟨d, _, hd⟩ := Option.map_eq_some_iff.1 he
  cases hd
  have := Text.length_of_splitFirst? hs
  omega

def unescape : Text → Text
  | [] => []
  | c :: t =>
    if c = '&' then
      match _h : leadingEntity? t with
      | some (d, rest) => d :: unescape rest
      | none => '&' :: unescape t
    else c :: unescape t
termination_by t => t.length
decreasing_by
  · have := length_of_leadingEntity? _h
    simp only [List.length_cons]
    omega
  · simp
  · simp

def escapeAngles (t : Text) : Text :=
  t.flatMap fun c =>
    if c = '<' then "&lt;".toList else if c = '>' then "&gt;".toList else [c]

end ScriptLens.Markup
