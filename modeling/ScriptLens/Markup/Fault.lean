import ScriptLens.Markup.Name
import ScriptLens.Text.Quoted

/-!
What can be wrong with markup. A fault names the construct that was being read, where it began, and
the cause for which reading stopped; places are byte offsets, and the message turns them into rows
and columns of the document.
-/

namespace ScriptLens.Markup

inductive Construct where
  | declaration
  | comment
  | instruction
  | doctype
  | entity
  | element
  | attribute
  | cdata
  | text
  deriving DecidableEq, Repr

inductive Cause where
  | endOfText
  | badName
  | notAllowed (c : Char) (offset : Nat)
  | unexpected (expected : List Char) (actual : Char) (offset : Nat)
  | notQuote (actual : Char) (offset : Nat)
  | notSpace (actual : Char) (offset : Nat)
  | missing (expected : List Text) (offset : Nat)
  | badExternalId
  | dashesInComment
  | dashBeforeCommentEnd
  | sectionEndInText
  deriving DecidableEq, Repr

inductive Fault where
  | unknown (offset : Nat)
  | invalid (construct : Construct) (cause : Cause) (offset : Nat)
  deriving DecidableEq, Repr

/-- The first byte of a character, as the character of that number: a message about a byte shows no
more of a longer character than this. -/
def leadByte (c : Char) : Char :=
  Char.ofNat
    (if c.toNat < 0x80 then c.toNat
     else if c.toNat < 0x800 then 0xC0 + c.toNat / 0x40
     else if c.toNat < 0x10000 then 0xE0 + c.toNat / 0x1000
     else 0xF0 + c.toNat / 0x40000)

/-- The row and column after `n` bytes, both counted from one. -/
def rowColumn : (row column n : Nat) → Text → Nat × Nat
  | row, column, _, [] => (row, column)
  | row, column, n, c :: t =>
    if n < c.utf8Size then (row, column)
    else if c = '\n' then rowColumn (row + 1) 1 (n - c.utf8Size) t
    else rowColumn row (column + 1) (n - c.utf8Size) t

def place (document : Text) (offset : Nat) : Text :=
  let (row, column) := rowColumn 1 1 offset document
  Text.ofNat row ++ ':' :: Text.ofNat column

def alternatives (ts : List Text) : Text :=
  List.intercalate [',', ' '] (ts.map fun t => '\'' :: t ++ ['\''])

namespace Construct

def name : Construct → Text
  | .declaration => "XML declaration".toList
  | .comment => "comment".toList
  | .instruction => "processing instruction".toList
  | .doctype => "DTD".toList
  | .entity => "DTD entity".toList
  | .element => "element".toList
  | .attribute => "attribute".toList
  | .cdata => "CDATA".toList
  | .text => "character data".toList

end Construct

namespace Cause

def message (document : Text) : Cause → Text
  | .endOfText => "unexpected end of stream".toList
  | .badName => "invalid name token".toList
  | .notAllowed c offset =>
    "a non-XML character ".toList ++ alternatives [Text.escapeChar c] ++ " found at ".toList ++
      place document offset
  | .unexpected expected actual offset =>
    "expected ".toList ++ alternatives (expected.map ([·])) ++ " not ".toList ++
      alternatives [[actual]] ++ " at ".toList ++ place document offset
  | .notQuote actual offset =>
    "expected quote mark not ".toList ++ alternatives [[actual]] ++ " at ".toList ++
      place document offset
  | .notSpace actual offset =>
    "expected space not ".toList ++ alternatives [[actual]] ++ " at ".toList ++
      place document offset
  | .missing expected offset =>
    "expected ".toList ++ alternatives expected ++ " at ".toList ++ place document offset
  | .badExternalId => "invalid ExternalID".toList
  | .dashesInComment => "'--' is not allowed in comments".toList
  | .dashBeforeCommentEnd => "comment cannot end with '-'".toList
  | .sectionEndInText => "']]>' is not allowed inside a character data".toList

end Cause

namespace Fault

def message (document : Text) : Fault → Text
  | .unknown offset => "unknown token at ".toList ++ place document offset
  | .invalid construct cause offset =>
    "invalid ".toList ++ construct.name ++ " at ".toList ++ place document offset ++
      " cause ".toList ++ cause.message document

end Fault

end ScriptLens.Markup
