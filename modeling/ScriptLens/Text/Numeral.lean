import ScriptLens.Text.Basic

/-! Natural numbers written in digits. -/

namespace ScriptLens.Text

def decimalValue? (c : Char) : Option Nat :=
  if isAsciiDigit c then some (c.toNat - '0'.toNat) else none

def hexValue? (c : Char) : Option Nat :=
  if isAsciiDigit c then some (c.toNat - '0'.toNat)
  else if 'a' ≤ c ∧ c ≤ 'f' then some (c.toNat - 'a'.toNat + 10)
  else if 'A' ≤ c ∧ c ≤ 'F' then some (c.toNat - 'A'.toNat + 10)
  else none

/-- The value of digits in a base, most significant first, after those that made `value`. -/
def digitsFrom? (base : Nat) (digit? : Char → Option Nat) (value : Nat) : Text → Option Nat
  | [] => some value
  | c :: t => (digit? c).bind fun d => digitsFrom? base digit? (value * base + d) t

/-- A number in a base; a sign of plus may stand before its digits. -/
def numeral? (base : Nat) (digit? : Char → Option Nat) (t : Text) : Option Nat :=
  match (after? ['+'] t).getD t with
  | [] => none
  | c :: t => digitsFrom? base digit? 0 (c :: t)

def decimal? : Text → Option Nat := numeral? 10 decimalValue?

def hex? : Text → Option Nat := numeral? 16 hexValue?

end ScriptLens.Text
