/-! Character properties as sorted lists of inclusive code point ranges. -/

namespace ScriptLens.Unicode

abbrev Ranges := List (Nat × Nat)

/-- Membership of a code point; a linear search, since texts are mostly below the first range. -/
def Ranges.contains (ranges : Ranges) (c : Char) : Bool :=
  ranges.any fun (first, last) => first ≤ c.toNat && c.toNat ≤ last

end ScriptLens.Unicode
