/-
# Operators on values

What the operators of the expression language do to values. Two of the infix ones, which ask about
the parts of an object, have no value for constants.
-/
import RowExpr.Expr.Op
import RowExpr.Number.Arithmetic
import RowExpr.Text.Units
import RowExpr.Value.Basic

namespace RowExpr.Value

/-! ## Comparison -/

/-- Equality without conversion. Arrays and objects are equal to nothing. -/
def strictEqual : Value → Value → Bool
  | undefined, undefined => true
  | null, null => true
  | boolean a, boolean b => a == b
  | number a, number b => a == b
  | string a, string b => a == b
  | _, _ => false

/-- Equality of values without parts: missing values are equal to each other only, texts are
compared as such, and all else as numbers. -/
def looseEqualPrimitive (a b : Value) : Bool :=
  if a.isNullish || b.isNullish then a.isNullish && b.isNullish
  else
    match a, b with
    | string s, string t => s == t
    | a, b => a.toNumber == b.toNumber

/-- A value without its parts: an array or an object counts as its text. -/
def toPrimitive (v : Value) : Value := if v.isPrimitive then v else string v.toText

/-- Equality after conversion. Arrays and objects are never equal to each other, nor to a missing
value, and compare as their text with all else. -/
def looseEqual (a b : Value) : Bool :=
  if !a.isPrimitive && !b.isPrimitive then false
  else looseEqualPrimitive a.toPrimitive b.toPrimitive

/-- The order of two numbers, if they have one. -/
def compareNumbers (a b : Float) : Option Ordering :=
  if a < b then some .lt
  else if b < a then some .gt
  else if a == b then some .eq
  else none

/-- The order of two values, if they have one: of two texts by units, of all else as numbers. -/
def order (a b : Value) : Option Ordering :=
  match a.toPrimitive, b.toPrimitive with
  | string s, string t => some (Text.compareUnits s.toList t.toList)
  | a, b => compareNumbers a.toNumber b.toNumber

/-! ## Operators -/

/-- Whether a sum with this value joins texts. -/
def joins : Value → Bool
  | string _ | array _ | object _ => true
  | _ => false

/-- The sum of two values. -/
def add (a b : Value) : Value :=
  if a.joins || b.joins then string (a.toText ++ b.toText) else number (a.toNumber + b.toNumber)

/-- The value of an infix operator, if it has one for constants. -/
def binary (op : BinaryOp) (a b : Value) : Option Value :=
  let x := a.toNumber
  let y := b.toNumber
  let bits (f : Int32 → Int32 → Int32) : Value :=
    number (Number.ofInt32 (f (Number.toInt32 x) (Number.toInt32 y)))
  match op with
  | .add => some (add a b)
  | .subtract => some (number (x - y))
  | .multiply => some (number (x * y))
  | .divide => some (number (x / y))
  | .modulo => some (number (Number.remainder x y))
  | .power => some (number (Number.power x y))
  | .equal => some (boolean (looseEqual a b))
  | .notEqual => some (boolean !(looseEqual a b))
  | .strictEqual => some (boolean (strictEqual a b))
  | .strictNotEqual => some (boolean !(strictEqual a b))
  | .lessThan => some (boolean (order a b == some .lt))
  | .greaterThan => some (boolean (order a b == some .gt))
  | .lessEqual => some (boolean (order a b == some .lt || order a b == some .eq))
  | .greaterEqual => some (boolean (order a b == some .gt || order a b == some .eq))
  | .bitAnd => some (bits (· &&& ·))
  | .bitOr => some (bits (· ||| ·))
  | .bitXor => some (bits (· ^^^ ·))
  | .shiftLeft => some (bits Number.shiftLeft)
  | .shiftRight => some (bits Number.shiftRight)
  | .unsignedShiftRight =>
    some (number (Number.ofInt
      (Number.unsignedShiftRight (Number.toInt32 x) (Number.toInt32 y)).toNat))
  | .memberOf | .instanceOf => none

/-- The value of a unary operator, if it has one for constants. -/
def unary (op : UnaryOp) (v : Value) : Option Value :=
  match op with
  | .negate => some (number (-v.toNumber))
  | .plus => some (number v.toNumber)
  | .not => some (boolean !v.truth)
  | .bitNot => some (number (Number.ofInt32 (~~~(Number.toInt32 v.toNumber))))
  | .typeOf => some (string v.typeName)
  | .void => some undefined
  | .delete => none

/-- Whether a logical operator stops at the value of its left operand. -/
def settles (op : LogicalOp) (v : Value) : Bool :=
  match op with
  | .and => !v.truth
  | .or => v.truth
  | .coalesce => !v.isNullish

/-! ## Members -/

/-- The index that a member name writes: decimal digits, perhaps with a plus in front. -/
def indexOf? (name : String) : Option Nat :=
  match name.toList with
  | '+' :: digits => Number.readDigits? 10 digits
  | digits => Number.readDigits? 10 digits

/-- The member of a value under a key: the items and the length of an array, the units and the
length of a text, the members of an object. -/
def member (owner key : Value) : Value :=
  let name := key.toText
  match owner with
  | array items =>
    if name = "length" then number (Number.ofInt items.length)
    else ((indexOf? name).bind (items[·]?)).getD undefined
  | string s =>
    let units := Text.units s.toList
    if name = "length" then number (Number.ofInt units.length)
    else
      match (indexOf? name).bind (units[·]?) with
      | some unit => string (String.singleton (Text.charOfUnit unit))
      | none => undefined
  | object members => (Table.get? name members).getD undefined
  | _ => undefined

end RowExpr.Value
