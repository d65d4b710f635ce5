import ScriptLens.Unicode.Age
import ScriptLens.Unicode.Alphabetic
import ScriptLens.Unicode.Mark
import ScriptLens.Unicode.Numeric
import ScriptLens.Unicode.Separator

/-! The character classes that recognisers are written with. -/

namespace ScriptLens

open Unicode

/-- White space in the wide sense, line breaks and no-break spaces included. -/
def isBlank (c : Char) : Bool :=
  whiteSpace.contains c

/-- A decimal digit of any script known to version 16.0. -/
def isDigit (c : Char) : Bool :=
  decimalDigit.contains c && !addedInVersion17.contains c

/-- A letter or a number of version 17.0, Roman numerals and fractions included. -/
def isAlphanumeric (c : Char) : Bool :=
  alphabetic.contains c || decimalDigit.contains c || letterNumber.contains c ||
    otherNumber.contains c

/-- A part of a word in a declaration: letters with their marks, digits, connectors and joiners, all
as of version 16.0. Fractions and superscripts, which `isAlphanumeric` takes, are not among them. -/
def isWordPart (c : Char) : Bool :=
  (alphabetic.contains c || mark.contains c || decimalDigit.contains c || connector.contains c ||
    joinControl.contains c) && !addedInVersion17.contains c

def isAsciiLetter (c : Char) : Bool :=
  ('a' ≤ c && c ≤ 'z') || ('A' ≤ c && c ≤ 'Z')

def isAsciiDigit (c : Char) : Bool :=
  '0' ≤ c && c ≤ '9'

end ScriptLens
