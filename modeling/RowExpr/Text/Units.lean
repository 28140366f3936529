/-
# Sixteen-bit units

Texts are measured, indexed and compared by the units of UTF-16: one for a character below
`U+10000`, and a pair of surrogates for every other.
-/
namespace RowExpr.Text

/-- The units of one character. -/
def unitsOfChar (c : Char) : List Nat :=
  let n := c.toNat
  if n < 0x10000 then [n]
  else [0xd800 + (n - 0x10000) / 0x400, 0xdc00 + (n - 0x10000) % 0x400]

/-- The units of a text. -/
def units (cs : List Char) : List Nat := cs.flatMap unitsOfChar

/-- The order of texts, unit by unit. -/
def compareUnits (a b : List Char) : Ordering := List.compareLex compare (units a) (units b)

/-- The character of a unit on its own; half of a pair has none and becomes `U+FFFD`. -/
def charOfUnit (unit : Nat) : Char :=
  if 0xd800 ≤ unit ∧ unit < 0xe000 then '�' else Char.ofNat unit

end RowExpr.Text
