import ScriptLens.Decimal.Shortest
import ScriptLens.Text.Quoted

/-!
Numbers of a JSON text. A literal without fraction and exponent that fits 64 bits is an integer;
every other literal is a real number in binary64.
-/

namespace ScriptLens.Json

inductive Number where
  | integer (n : Int)
  | real (x : Float)

structure Literal where
  negative : Bool
  whole : List Nat
  fraction : Option (List Nat)
  exponent : Option Int

namespace Literal

/-- Digits read as long as their value fits 64 bits, and the number of those left over. -/
def significand : (value : Nat) → List Nat → Nat × Nat
  | value, [] => (value, 0)
  | value, d :: ds =>
    if value * 10 + d < UInt64.size then significand (value * 10 + d) ds else (value, ds.length + 1)

def powerOfTen (n : Nat) : Float :=
  Float.ofScientific 1 false n

def scaleDown (x : Float) (n : Nat) : Float :=
  if n ≤ 308 then x / powerOfTen n
  else if x == 0 then x
  else scaleDown (x / powerOfTen 308) (n - 308)
termination_by n
decreasing_by omega

/-- One multiplication or division scales the significand: the last bit may differ from that of the
nearest value. -/
def scale (significand : Nat) (exponent : Int) : Float :=
  let x := significand.toUInt64.toFloat
  if exponent < 0 then scaleDown x (-exponent).toNat else x * powerOfTen exponent.toNat

def magnitude (l : Literal) : Float :=
  let (whole, dropped) := significand 0 l.whole
  let fraction := l.fraction.getD []
  let (value, ignored) := significand whole fraction
  let exponent := (dropped : Int) - (fraction.length - ignored : Nat) + l.exponent.getD 0
  scale value exponent

def value (l : Literal) : Number :=
  let (whole, dropped) := significand 0 l.whole
  if l.fraction.isNone && l.exponent.isNone && dropped == 0 &&
      (!l.negative || (0 < whole && whole ≤ UInt64.size / 2)) then
    .integer (if l.negative then -whole else whole)
  else .real (if l.negative then -l.magnitude else l.magnitude)

end Literal

namespace Number

/-- Digits with a point where it falls if that is near, else with a signed exponent of ten. -/
def layOut (digits : Text) (exponent : Int) : Text :=
  let point := digits.length + exponent
  if 0 ≤ exponent && point ≤ 16 then
    digits ++ List.replicate exponent.toNat '0' ++ ['.', '0']
  else if 0 < point && point ≤ 16 then
    digits.take point.toNat ++ '.' :: digits.drop point.toNat
  else if -5 < point && point ≤ 0 then
    '0' :: '.' :: List.replicate (-point).toNat '0' ++ digits
  else
    let power := (if 0 < point then ['+'] else []) ++ (toString (point - 1)).toList
    match digits with
    | d :: e :: more => d :: '.' :: e :: more ++ 'e' :: power
    | short => short ++ 'e' :: power

def realText (x : Float) : Text :=
  let d := (Binary.ofBits x.toBits).shortest
  let sign : Text := if x.toBits >>> 63 == 1 then ['-'] else []
  sign ++ layOut (Text.ofNat d.digits) d.exponent

def text : Number → Text
  | .integer n => (toString n).toList
  | .real x => realText x

end Number

end ScriptLens.Json
