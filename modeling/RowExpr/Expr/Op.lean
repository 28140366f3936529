/-
# The operators of the expression language

Infix, prefix and assignment operators, each with its spelling. They are apart from the aggregate
and window operators, which are called by name.
-/
namespace RowExpr

/-- Infix operators that evaluate both operands. -/
inductive BinaryOp where
  | equal
  | notEqual
  | strictEqual
  | strictNotEqual
  | lessThan
  | greaterThan
  | lessEqual
  | greaterEqual
  | add
  | subtract
  | multiply
  | divide
  | modulo
  | power
  | bitAnd
  | bitOr
  | bitXor
  | shiftLeft
  | shiftRight
  | unsignedShiftRight
  | memberOf
  | instanceOf
deriving DecidableEq, Repr

/-- The spelling of an infix operator. -/
def BinaryOp.spelling : BinaryOp → String
  | equal => "=="
  | notEqual => "!="
  | strictEqual => "==="
  | strictNotEqual => "!=="
  | lessThan => "<"
  | greaterThan => ">"
  | lessEqual => "<="
  | greaterEqual => ">="
  | add => "+"
  | subtract => "-"
  | multiply => "*"
  | divide => "/"
  | modulo => "%"
  | power => "**"
  | bitAnd => "&"
  | bitOr => "|"
  | bitXor => "^"
  | shiftLeft => "<<"
  | shiftRight => ">>"
  | unsignedShiftRight => ">>>"
  | memberOf => "in"
  | instanceOf => "instanceof"

/-- Whether the spelling is a word, which needs blanks around it. -/
def BinaryOp.isWord : BinaryOp → Bool
  | memberOf | instanceOf => true
  | _ => false

/-- Infix operators that may leave their right operand unevaluated. -/
inductive LogicalOp where
  | and
  | or
  | coalesce
deriving DecidableEq, Repr

/-- The spelling of a logical operator. -/
def LogicalOp.spelling : LogicalOp → String
  | and => "&&"
  | or => "||"
  | coalesce => "??"

/-- Operators written before their operand. -/
inductive UnaryOp where
  | negate
  | plus
  | not
  | bitNot
  | typeOf
  | void
  | delete
deriving DecidableEq, Repr

/-- The spelling of a unary operator. -/
def UnaryOp.spelling : UnaryOp → String
  | negate => "-"
  | plus => "+"
  | not => "!"
  | bitNot => "~"
  | typeOf => "typeof"
  | void => "void"
  | delete => "delete"

/-- Whether the spelling is a word, which needs a blank after it. -/
def UnaryOp.isWord : UnaryOp → Bool
  | typeOf | void | delete => true
  | _ => false

/-- The two operators that change a variable by one. -/
inductive UpdateOp where
  | increment
  | decrement
deriving DecidableEq, Repr

/-- The spelling of an update operator. -/
def UpdateOp.spelling : UpdateOp → String
  | increment => "++"
  | decrement => "--"

/-- Assignment, plain or combined with an arithmetic operator. -/
inductive AssignOp where
  | plain
  | add
  | subtract
  | multiply
  | divide
  | modulo
  | power
deriving DecidableEq, Repr

/-- The spelling of an assignment operator. -/
def AssignOp.spelling : AssignOp → String
  | plain => "="
  | add => "+="
  | subtract => "-="
  | multiply => "*="
  | divide => "/="
  | modulo => "%="
  | power => "**="

end RowExpr
