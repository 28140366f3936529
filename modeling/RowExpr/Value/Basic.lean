/-
# Values

The values of constant expressions, and their conversions to truth, number and text.
-/
import RowExpr.Number.Format
import RowExpr.Number.Numeral
import RowExpr.Table
import RowExpr.Text.Blank

namespace RowExpr

/-- A value. The members of an object are in order. -/
inductive Value where
  | undefined
  | null
  | boolean (value : Bool)
  | number (value : Float)
  | string (value : String)
  | array (items : List Value)
  | object (members : List (String × Value))
deriving Inhabited

/-- The signed whole number of at most 64 bits that hexadecimal digits write, as a double. -/
def Number.readHex? (cs : List Char) : Option Float := do
  let n ← readInt? 16 cs
  if -0x8000000000000000 ≤ n ∧ n < 0x8000000000000000 then some (ofInt n) else none

/-- The number that a text writes, blanks around it apart: nothing is zero, and what is no numeral
is no number. -/
def Number.ofText (text : String) : Float :=
  match Text.trim text.toList with
  | [] => 0
  | '0' :: 'x' :: digits => (readHex? digits).getD nan
  | '0' :: 'X' :: digits => (readHex? digits).getD nan
  | trimmed =>
    if trimmed = "Infinity".toList ∨ trimmed = "+Infinity".toList then infinity
    else if trimmed = "-Infinity".toList then -infinity
    else (readDecimal? trimmed).getD nan

namespace Value

/-- Whether a value counts as true. -/
def truth : Value → Bool
  | undefined | null => false
  | boolean b => b
  | number x => !(x == 0) && !x.isNaN
  | string s => !s.isEmpty
  | array _ | object _ => true

/-- Whether a value is missing. -/
def isNullish : Value → Bool
  | undefined | null => true
  | _ => false

/-- Whether a value has no parts. -/
def isPrimitive : Value → Bool
  | array _ | object _ => false
  | _ => true

/-- A value as a number. -/
def toNumber : Value → Float
  | undefined => Number.nan
  | null => 0
  | boolean b => if b then 1 else 0
  | number x => x
  | string s => Number.ofText s
  | array [] => 0
  | array [item] => toNumber item
  | array _ => Number.nan
  | object _ => Number.nan

/-- The number that a value is. -/
def number? : Value → Option Float
  | number x => some x
  | _ => none

mutual

/-- A value as a text. -/
def toText : Value → String
  | undefined => "undefined"
  | null => "null"
  | boolean b => toString b
  | number x => Number.format x
  | string s => s
  | array items => textOfItems items
  | object _ => "[object Object]"

/-- The items of an array as a text, separated by commas; a missing one is empty. -/
def textOfItems : List Value → String
  | [] => ""
  | [item] => if item.isNullish then "" else toText item
  | item :: rest => (if item.isNullish then "" else toText item) ++ "," ++ textOfItems rest

end

/-- The name of the type of a value. -/
def typeName : Value → String
  | undefined => "undefined"
  | null | array _ | object _ => "object"
  | boolean _ => "boolean"
  | number _ => "number"
  | string _ => "string"

end Value

end RowExpr
