/-
# JSON values

The values that definitions are read from and compiled definitions are written to. The members of
an object are in order.
-/
import RowExpr.Number.Dyadic

namespace RowExpr

/-- A JSON value. Numbers are finite. -/
inductive Json where
  | null
  | boolean (value : Bool)
  | number (value : Float)
  | string (value : String)
  | array (items : List Json)
  | object (members : List (String × Json))

/-- A number as a JSON value: a whole number below `2 ^ 53` is given as an integer, which has no
negative zero, and a number that is not finite becomes null. -/
def Json.ofFloat (x : Float) : Json :=
  match Number.Dyadic.ofFloat? x with
  | none => null
  | some d =>
    if d.isWhole && d.truncate.natAbs < 0x20000000000000 then number (Number.ofInt d.truncate)
    else number x

end RowExpr
