import ScriptLens.Text.Basic
import ScriptLens.Unicode.Case

/-! Lower case of whole texts, in which one letter depends on its place in the word. -/

namespace ScriptLens.Text

open Unicode

def casedNext (t : Text) : Bool :=
  ((t.dropWhile caseIgnorable.contains).head?.map cased.contains).getD false

/-- The lower-case form of a character between two texts, the first of which is reversed. Only the
dotted capital I becomes two characters, and a sigma takes its final form at the end of a word. -/
def lowercaseAt (before : Text) (c : Char) (after : Text) : Text :=
  if c = 'Σ' then [if casedNext before && !casedNext after then 'ς' else 'σ']
  else if c = 'İ' then ['i', '\u0307']
  else [lowercase c]

def lowercaseFrom (before : Text) : Text → Text
  | [] => []
  | c :: t => lowercaseAt before c t ++ lowercaseFrom (c :: before) t

def toLowercase (t : Text) : Text :=
  lowercaseFrom [] t

end ScriptLens.Text
