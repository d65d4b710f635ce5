/-!
The shortest decimal that reads back as a given binary64 value. A value stands for the interval of
the reals that round to it; of the decimals in that interval those with the fewest digits are
wanted, and of these the nearest. All of it is exact arithmetic on naturals.
-/

namespace ScriptLens

/-- The value `mantissa * 2 ^ exponent`. -/
structure Binary where
  mantissa : Nat
  exponent : Int
  /-- Below a power of two the next value is only half as far away. -/
  narrowBelow : Bool
  deriving DecidableEq, Repr

structure Decimal where
  digits : Nat
  exponent : Int
  deriving DecidableEq, Repr

namespace Binary

def ofBits (bits : UInt64) : Binary :=
  let exponent := ((bits >>> 52) &&& 0x7FF).toNat
  let fraction := (bits &&& 0xFFFFFFFFFFFFF).toNat
  if exponent = 0 then ⟨fraction, -1074, false⟩
  else ⟨Nat.pow 2 52 + fraction, exponent - 1075, fraction == 0 && 1 < exponent⟩

/-- A decimal and a number of quarter units of `b`, brought to one scale. -/
def scaled (b : Binary) (d : Decimal) (quarters : Nat) : Nat × Nat :=
  (4 * d.digits * Nat.pow 10 d.exponent.toNat * Nat.pow 2 (-b.exponent).toNat,
   quarters * Nat.pow 2 b.exponent.toNat * Nat.pow 10 (-d.exponent).toNat)

/-- Whether a decimal lies in the interval of `b`; its ends belong to an even mantissa. -/
def readsBack (b : Binary) (d : Decimal) : Bool :=
  let below := if b.narrowBelow then 4 * b.mantissa - 1 else 4 * b.mantissa - 2
  let (x, low) := b.scaled d below
  let (_, high) := b.scaled d (4 * b.mantissa + 2)
  if b.mantissa % 2 = 0 then low ≤ x && x ≤ high else low < x && x < high

def floorOn (b : Binary) (exponent : Int) : Decimal :=
  let numerator := b.mantissa * Nat.pow 2 b.exponent.toNat * Nat.pow 10 (-exponent).toNat
  let denominator := Nat.pow 2 (-b.exponent).toNat * Nat.pow 10 exponent.toNat
  ⟨numerator / denominator, exponent⟩

/-- Of two neighbours around `b` the nearer, and the even one of two that are as near. -/
def nearer (b : Binary) (d e : Decimal) : Decimal :=
  let (x, y) := b.scaled ⟨d.digits + e.digits, d.exponent⟩ (8 * b.mantissa)
  if y < x then d else if x < y then e else if d.digits % 2 = 0 then d else e

def onGrid? (b : Binary) (exponent : Int) : Option Decimal :=
  let d := b.floorOn exponent
  let e : Decimal := ⟨d.digits + 1, exponent⟩
  match b.readsBack d, b.readsBack e with
  | true, true => some (b.nearer d e)
  | true, false => some d
  | false, true => some e
  | false, false => none

def searchGrids (b : Binary) (exponent : Int) : Nat → Decimal
  | 0 => b.floorOn exponent
  | n + 1 => (b.onGrid? exponent).getD (searchGrids b (exponent - 1) n)

end Binary

namespace Decimal

def strip (d : Decimal) : Decimal :=
  if h : d.digits = 0 then ⟨0, 0⟩
  else if d.digits % 10 = 0 then strip ⟨d.digits / 10, d.exponent + 1⟩
  else d
termination_by d.digits
decreasing_by
  exact Nat.div_lt_self (Nat.pos_of_ne_zero h) (by decide)

end Decimal

/-- No finite value exceeds `10 ^ 309`, and seventeen digits tell all of them apart, so the search
ends before its bound. -/
def Binary.shortest (b : Binary) : Decimal :=
  if b.mantissa = 0 then ⟨0, 0⟩ else (b.searchGrids 309 660).strip

end ScriptLens
