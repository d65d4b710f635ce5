import ScriptLens.Text.Column
import ScriptLens.Text.Template

/-! References to localized texts, in scripts and in Lua sources. -/

namespace ScriptLens

inductive ReferenceSyntax where
  | script
  | lua
  deriving DecidableEq, Repr

namespace ReferenceSyntax

/-- The forms `{page,id}`, `readtext.{page}.{id}` and `page="page" line="id"`. -/
def scriptForms : List Template :=
  [[.literal ['\x7b'], .blanks, .number, .blanks, .literal [','], .blanks, .number, .blanks,
      .literal ['\x7d']],
    [.literal ("readtext.".toList ++ ['\x7b']), .blanks, .number, .blanks,
      .literal ['\x7d', '.', '\x7b'], .blanks, .number, .blanks, .literal ['\x7d']],
    [.literal "page=\"".toList, .number, .literal ['"'], .gap, .literal "line=\"".toList, .number,
      .literal ['"']]]

/-- The form `ReadText(page, id)`, whose first number is followed by its comma at once. -/
def luaForms : List Template :=
  [[.literal "ReadText".toList, .blanks, .literal ['('], .blanks, .number, .literal [','], .blanks,
    .number, .blanks, .literal [')']]]

def forms : ReferenceSyntax → List Template
  | .script => scriptForms
  | .lua => luaForms

end ReferenceSyntax

/-- A reference on a line, in byte offsets within the line. -/
structure TextReference where
  page : Text
  id : Text
  start : Nat
  stop : Nat
  deriving DecidableEq, Repr

namespace TextReference

def ofFound? : Template.Found → Option TextReference
  | ⟨start, stop, [page, id]⟩ => some ⟨page, id, start, stop⟩
  | _ => none

def at? (references : ReferenceSyntax) (line : Text) (column : Nat) : Option TextReference :=
  let cursor := Text.columnOffset line column
  ((Template.all references.forms line).find? fun found =>
    found.start ≤ cursor && cursor ≤ found.stop).bind ofFound?

end TextReference

end ScriptLens
