/-
# Faults of a scanner

A scanner that fails says how many characters were left at that point, which fixes the position of
the fault in any enclosing text without the scanner knowing where it stands.
-/
import RowExpr.Error.Malformed

namespace RowExpr

/-- A fault and the number of characters that were left when it was found. -/
structure ScanFault where
  fault : TextFault
  left : Nat

end RowExpr
