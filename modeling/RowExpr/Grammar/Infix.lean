/-
# Infix operators

How tightly each infix operator binds. Operators of equal strength group from the left. The
exponent operator, which groups from the right, binds more tightly than all of these and has a
rule of its own.
-/
import RowExpr.Expr.Basic
import RowExpr.Token

namespace RowExpr.Grammar

/-- An infix operator. -/
inductive Infix where
  | binary (op : BinaryOp)
  | logical (op : LogicalOp)
deriving DecidableEq

/-- The expression that an infix operator makes of its operands. -/
def Infix.apply : Infix → Expr → Expr → Expr
  | binary op, left, right => .binary op left right
  | logical op, left, right => .logical op left right

/-- The strength of a mark as an infix operator, and the operator. -/
def infixOfPunct? : Punct → Option (Nat × Infix)
  | .questionQuestion => some (1, .logical .coalesce)
  | .orOr => some (1, .logical .or)
  | .andAnd => some (2, .logical .and)
  | .pipe => some (3, .binary .bitOr)
  | .caret => some (4, .binary .bitXor)
  | .amp => some (5, .binary .bitAnd)
  | .eqEq => some (6, .binary .equal)
  | .notEq => some (6, .binary .notEqual)
  | .eqEqEq => some (6, .binary .strictEqual)
  | .notEqEq => some (6, .binary .strictNotEqual)
  | .lt => some (7, .binary .lessThan)
  | .gt => some (7, .binary .greaterThan)
  | .ltEq => some (7, .binary .lessEqual)
  | .gtEq => some (7, .binary .greaterEqual)
  | .shl => some (8, .binary .shiftLeft)
  | .shr => some (8, .binary .shiftRight)
  | .ushr => some (8, .binary .unsignedShiftRight)
  | .plus => some (9, .binary .add)
  | .minus => some (9, .binary .subtract)
  | .star => some (10, .binary .multiply)
  | .slash => some (10, .binary .divide)
  | .percent => some (10, .binary .modulo)
  | _ => none

/-- The strength of a token as an infix operator, and the operator. -/
def infixOp? : Token → Option (Nat × Infix)
  | .punct mark => infixOfPunct? mark
  | .keyword .in_ => some (7, .binary .memberOf)
  | .keyword .instanceof => some (7, .binary .instanceOf)
  | _ => none

/-- The operator that a token is before an operand. -/
def unary? : Token → Option UnaryOp
  | .punct .minus => some .negate
  | .punct .plus => some .plus
  | .punct .bang => some .not
  | .punct .tilde => some .bitNot
  | .keyword .typeof => some .typeOf
  | .keyword .void => some .void
  | .keyword .delete => some .delete
  | _ => none

/-- The operator that a token is before or after a variable. -/
def update? : Token → Option UpdateOp
  | .punct .plusPlus => some .increment
  | .punct .minusMinus => some .decrement
  | _ => none

/-- The name that a token is after a dot, where reserved words are names too. -/
def propertyName? : Token → Option String
  | .identifier name => some name
  | .keyword word => some word.spelling
  | .boolean value => some (toString value)
  | .null => some "null"
  | _ => none

/-- Whether an expression may be assigned to, as far as the grammar goes. -/
def isTarget : Expr → Bool
  | .identifier _ | .member _ _ | .index _ _ => true
  | _ => false

end RowExpr.Grammar
