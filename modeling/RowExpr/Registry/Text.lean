/-
# Functions of texts

The scalar functions that take their first argument as a text, and the length.
-/
import RowExpr.Number.Prefix
import RowExpr.Registry.Math
import RowExpr.Text.Case
import RowExpr.Text.Units

namespace RowExpr

namespace ScalarFunction

/-- A function from text to text. -/
def ofText (f : List Char → List Char) : ScalarFunction where
  least := 1
  most := some 1
  apply args := .string (String.ofList (f (argument args 0).toText.toList))

/-- The length of an array in items, or of a text in units. -/
def length : ScalarFunction where
  least := 1
  most := some 1
  apply args :=
    match argument args 0 with
    | .array items => .number (Number.ofInt items.length)
    | .string s => .number (Number.ofInt (Text.units s.toList).length)
    | _ => .undefined

/-- The number that a text starts with. -/
def parseFloat : ScalarFunction where
  least := 1
  most := some 1
  apply args := .number (Number.ofTextFront (argument args 0).toText.toList)

/-- The whole number that a text starts with, in the radix of the second argument or in ten. -/
def parseInt : ScalarFunction where
  least := 1
  most := some 2
  apply args :=
    let radix :=
      match args[1]? with
      | some v => v.toNumber.toUInt32.toNat
      | none => 10
    .number (Number.ofTextFrontInRadix radix (argument args 0).toText.toList)

end ScalarFunction

open ScalarFunction

/-- The functions of texts by name. -/
def Registry.textFunctions : List (String × ScalarFunction) := [
  ("lower", ofText Text.lower),
  ("upper", ofText Text.upper),
  ("trim", ofText Text.trim),
  ("length", length),
  ("parse_float", parseFloat),
  ("parse_int", parseInt)]

end RowExpr
