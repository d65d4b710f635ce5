import ScriptLens.Text.Basic

/-!
The two segments of a dotted path left of the cursor: the one being typed and the one before it. A
quote delimits like a dot does, but a quote at the very end is the one an editor put there to close
the value.
-/

namespace ScriptLens

structure PathContext where
  previous : Text
  current : Text
  deriving DecidableEq, Repr

namespace PathContext

def isDelimiter (c : Char) : Bool :=
  c == '.' || c == '"'

def dropFinalQuote (t : Text) : Text :=
  (Text.before? ['"'] t).getD t

/-- With no delimiter before it, a fragment longer than this stands alone. -/
def shortFragment : Nat := 3

def locate? (t : Text) : Option PathContext :=
  (Text.splitLast? isDelimiter (dropFinalQuote t)).map fun (before, current) =>
    let previous := match Text.splitLast? isDelimiter before with
      | some (_, segment) => segment
      | none => if shortFragment < t.length - before.length then [] else before
    { previous, current }

end PathContext

end ScriptLens
