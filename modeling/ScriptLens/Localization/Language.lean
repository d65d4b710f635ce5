import ScriptLens.Text.Numeral
import ScriptLens.Text.Template

/-! Languages, which have numbers. The number of a file's language is in its name. -/

namespace ScriptLens

namespace LanguageId

def any : Text := ['*']

def english : Text := "44".toList

/-- A file name that tells a language, with or without a letter before the number. -/
def fileNames : List Template :=
  [[.literal "0001-".toList, .number, .literal ".xml".toList],
    [.literal "0001-l".toList, .number, .literal ".xml".toList],
    [.literal "0001-L".toList, .number, .literal ".xml".toList]]

/-- The language that a file name tells; zeros before its number do not count. -/
def ofFileName (name : Text) : Text :=
  match Template.first? fileNames name with
  | some (digits :: _, _) =>
    match digits.dropWhile (· == '0') with
    | [] => ['0']
    | digits => digits
  | _ => any

def greatest : Nat := UInt64.size - 1

/-- The place of a language among others: by number, those without a number last. -/
def order (language : Text) : Nat :=
  if language = any then 0 else min ((Text.decimal? language).getD greatest) greatest

end LanguageId

end ScriptLens
