import ScriptLens.Text.Basic
import ScriptLens.Unicode.Printable

/-! Texts between double quotes, for messages: every character stays visible and on one line. -/

namespace ScriptLens.Text

def hexDigits (n : Nat) : Text :=
  Nat.toDigits 16 n

/-- Whether a character cannot be seen as itself: it is not printable, leaves no trace, or clings to
the one before it. The halfwidth sound marks stand on a width of their own. -/
def isHidden (c : Char) : Bool :=
  Unicode.unprintable.contains c || Unicode.defaultIgnorable.contains c ||
    (Unicode.graphemeExtend.contains c && c != '\uff9e' && c != '\uff9f')

def escapeChar (c : Char) : Text :=
  if c = '\x00' then ['\\', '0']
  else if c = '\t' then ['\\', 't']
  else if c = '\n' then ['\\', 'n']
  else if c = '\r' then ['\\', 'r']
  else if c = '\\' || c = '"' then ['\\', c]
  else if isHidden c then
    ['\\', 'u', '\x7b'] ++ hexDigits c.toNat ++ ['\x7d']
  else [c]

def quoted (t : Text) : Text :=
  '"' :: t.flatMap escapeChar ++ ['"']

def ofNat (n : Nat) : Text :=
  Nat.toDigits 10 n

end ScriptLens.Text
