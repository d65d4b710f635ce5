import ScriptLens.Text.Basic

/-!
Columns of a line, counted in UTF-16 units as editors do. A character outside the basic plane is
two units wide, so a column can fall inside it: `toColumn?` refuses such a column, `cutAtColumn`
moves on to the end of the character.
-/

namespace ScriptLens

def units (c : Char) : Nat :=
  if c.toNat < 0x10000 then 1 else 2

theorem units_pos (c : Char) : 0 < units c := by
  unfold units
  split <;> decide

namespace Text

/-- The width of a text in UTF-16 units. -/
def width : Text → Nat
  | [] => 0
  | c :: t => units c + width t

@[simp] theorem width_append (s t : Text) : width (s ++ t) = width s + width t := by
  induction s with
  | nil => simp [width]
  | cons c s ih => simp [width, ih, Nat.add_assoc]

/-- The part of a line before a column that falls between two characters. -/
def toColumn? : Nat → Text → Option Text
  | 0, _ => some []
  | _ + 1, [] => none
  | n + 1, c :: t =>
    if units c ≤ n + 1 then (toColumn? (n + 1 - units c) t).map (c :: ·) else none

/-- Cuts a line at a column, or at its end if the line is shorter. -/
def cutAtColumn : Nat → Text → Text × Text
  | _, [] => ([], [])
  | 0, c :: t => ([], c :: t)
  | n + 1, c :: t =>
    let (before, after) := cutAtColumn (n + 1 - units c) t
    (c :: before, after)

theorem append_cutAtColumn (n : Nat) (t : Text) :
    (cutAtColumn n t).1 ++ (cutAtColumn n t).2 = t := by
  induction t generalizing n with
  | nil => simp [cutAtColumn]
  | cons c t ih => cases n <;> simp [cutAtColumn, ih]

def columnOffset (line : Text) (column : Nat) : Nat :=
  byteSize (cutAtColumn column line).1

end Text

structure Run where
  before : Text
  body : Text
  after : Text
  deriving DecidableEq, Repr

namespace Run

def start (run : Run) : Nat := run.before.byteSize

def stop (run : Run) : Nat := run.start + run.body.byteSize

end Run

/-- The run of accepted characters that touches a column from either side, unless it is empty. -/
def runAt (accepts : Char → Bool) (line : Text) (column : Nat) : Option Run :=
  let (before, after) := Text.cutAtColumn column line
  let left := (before.reverse.takeWhile accepts).reverse
  let right := after.takeWhile accepts
  if left.isEmpty && right.isEmpty then none
  else some
    { before := (before.reverse.dropWhile accepts).reverse
      body := left ++ right
      after := after.dropWhile accepts }

end ScriptLens
