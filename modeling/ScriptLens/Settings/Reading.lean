import ScriptLens.Json.Value
import ScriptLens.Settings.Basic

/-!
Settings as clients send them: an object with the keys of the settings, on its own or under the key
`section`, or an array of their values. What is left out keeps its default.
-/

namespace ScriptLens

inductive SettingForm where
  | path
  | text
  | flag
  | whole
  deriving DecidableEq, Repr

inductive SettingsError where
  | missing (setting : Setting)
  | wrongType (found : Json) (expected : SettingForm)
  | tooMany (count : Nat)

namespace SettingForm

def label : SettingForm → Text
  | .path => "path string".toList
  | .text => "a string".toList
  | .flag => "a boolean".toList
  | .whole => "struct Settings".toList

end SettingForm

namespace Json

def marked (kind : String) (t : Text) : Text :=
  kind.toList ++ " `".toList ++ t ++ "`".toList

/-- The type of a value, with the value itself if it is short. -/
def label : Json → Text
  | .null => "null".toList
  | .bool b => marked "boolean" (if b then "true".toList else "false".toList)
  | .number (.integer n) => marked "integer" (Number.integer n).text
  | .number (.real x) => marked "floating point" (Number.real x).text
  | .string t => "string ".toList ++ Text.quoted t
  | .array _ => "sequence".toList
  | .object _ => "map".toList

end Json

namespace SettingsError

def message : SettingsError → Text
  | .missing setting => "missing required setting: ".toList ++ setting.key
  | .wrongType found expected =>
    "invalid settings: invalid type: ".toList ++ found.label ++ ", expected ".toList ++
      expected.label
  | .tooMany count =>
    "invalid settings: invalid length ".toList ++ Text.ofNat count ++
      ", expected fewer elements in array".toList

end SettingsError

namespace Settings

/-- A path may be unset. -/
def pathValue : Json → Except SettingsError (Option Text)
  | .null => .ok none
  | .string t => .ok (some t)
  | v => .error (.wrongType v .path)

def textValue : Json → Except SettingsError Text
  | .string t => .ok t
  | v => .error (.wrongType v .text)

def flagValue : Json → Except SettingsError Bool
  | .bool b => .ok b
  | v => .error (.wrongType v .flag)

def set (s : Settings) (setting : Setting) (v : Json) : Except SettingsError Settings :=
  match setting with
  | .unpackedFileLocation => (pathValue v).map fun p => { s with unpackedFileLocation := p }
  | .extensionsFolder => (pathValue v).map fun p => { s with extensionsFolder := p }
  | .languageNumber => (textValue v).map fun t => { s with languageNumber := t }
  | .limitLanguageOutput => (flagValue v).map fun b => { s with limitLanguageOutput := b }
  | .exceedinglyVerbose => (flagValue v).map fun b => { s with exceedinglyVerbose := b }

/-- Reads the members in the order of their keys; other keys do not count. -/
def ofMembers (members : List (Text × Json)) : Except SettingsError Settings :=
  Setting.byKey.foldlM (fun s setting =>
    match members.lookup setting.key with
    | some v => s.set setting v
    | none => .ok s) standard

/-- Reads values in the order in which the settings are declared. -/
def ofValues (values : List Json) : Except SettingsError Settings := do
  let s ← (Setting.all.zip values).foldlM (fun s (setting, v) => s.set setting v) standard
  if Setting.all.length < values.length then .error (.tooMany values.length) else .ok s

def sectionKey : Text := "x4CodeComplete".toList

def ofJson : Json → Except SettingsError Settings
  | .null => .ok standard
  | .object members =>
    match members.lookup sectionKey with
    | some (.object inner) => ofMembers inner
    | _ => ofMembers members
  | .array values => ofValues values
  | v => .error (.wrongType v .whole)

end Settings

end ScriptLens
