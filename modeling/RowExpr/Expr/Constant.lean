/-
# Named constants

The names that stand for a fixed value without being declared, with that value and the text that
generated code uses for it.
-/
import RowExpr.Number.Dyadic

namespace RowExpr

/-- A named constant. -/
inductive Constant where
  | undefined
  | infinity
  | notANumber
  | e
  | ln2
  | ln10
  | log2e
  | log10e
  | pi
  | sqrtHalf
  | sqrt2
deriving DecidableEq, Repr

namespace Constant

/-- Every constant. -/
def all : List Constant :=
  [undefined, infinity, notANumber, e, ln2, ln10, log2e, log10e, pi, sqrtHalf, sqrt2]

/-- The name of a constant. -/
def name : Constant → String
  | undefined => "undefined"
  | infinity => "Infinity"
  | notANumber => "NaN"
  | e => "E"
  | ln2 => "LN2"
  | ln10 => "LN10"
  | log2e => "LOG2E"
  | log10e => "LOG10E"
  | pi => "PI"
  | sqrtHalf => "SQRT1_2"
  | sqrt2 => "SQRT2"

/-- The constant of a name, if it has one. -/
def ofName? (word : String) : Option Constant := all.find? (·.name == word)

/-- The value of a constant; only `undefined` is not a number. -/
def value? : Constant → Option Float
  | undefined => none
  | infinity => some Number.infinity
  | notANumber => some Number.nan
  | e => some 2.718281828459045
  | ln2 => some 0.6931471805599453
  | ln10 => some 2.302585092994046
  | log2e => some 1.4426950408889634
  | log10e => some 0.4342944819032518
  | pi => some 3.141592653589793
  | sqrtHalf => some 0.7071067811865476
  | sqrt2 => some 1.4142135623730951

/-- The text that generated code uses for a constant. -/
def code : Constant → String
  | undefined => "void(0)"
  | infinity => "Number.POSITIVE_INFINITY"
  | notANumber => "Number.NaN"
  | e => "Math.E"
  | ln2 => "Math.LN2"
  | ln10 => "Math.LN10"
  | log2e => "Math.LOG2E"
  | log10e => "Math.LOG10E"
  | pi => "Math.PI"
  | sqrtHalf => "Math.SQRT1_2"
  | sqrt2 => "Math.SQRT2"

end Constant

end RowExpr
