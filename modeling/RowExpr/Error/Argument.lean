/-
# What can be wrong with the arguments of a call

The fields of an operator must read the row and nothing local, and its parameters must be
constants. The reasons for which an argument is not acceptable, and their wording.
-/
import RowExpr.Expr.Op

namespace RowExpr

/-- Something whose value is not known before the rows are read. -/
inductive Variable where
  | column (name : String)
  | localValue (name : String)
  | operatorResult
  | methodCall
  | assignment
  | objectReference
  | deletion
  | operator (name : String)
  | relation (op : BinaryOp)
deriving DecidableEq, Repr

/-- The wording of what is not constant. -/
def Variable.phrase : Variable → String
  | column name => "column '" ++ name ++ "'"
  | localValue name => "local value '" ++ name ++ "'"
  | operatorResult => "an operator result"
  | methodCall => "a row method call"
  | assignment => "an assignment"
  | objectReference => "an object reference"
  | deletion => "'delete'"
  | operator name => "operator '" ++ name ++ "'"
  | relation op => "'" ++ op.spelling ++ "'"

/-- A reason for which the arguments of a call are not acceptable. -/
inductive ArgumentFault where
  | functionArity (name : String) (count : Nat)
  | missingFields (name : String) (fields count : Nat)
  | extraArguments (name : String) (most count : Nat)
  | nestedOperator (inner outer : String)
  | localInField (operator name : String)
  | fieldWithoutColumn (operator : String)
  | notConstant (found : Variable)
  /-- A reason in the words of whoever raised it. -/
  | described (text : String)
deriving DecidableEq, Repr

/-- The wording of a reason. -/
def ArgumentFault.message : ArgumentFault → String
  | functionArity name count =>
    "function '" ++ name ++ "' received " ++ toString count ++ " argument(s)"
  | missingFields name fields count =>
    "operator '" ++ name ++ "' expects " ++ toString fields ++ " field argument(s), found "
      ++ toString count
  | extraArguments name most count =>
    "operator '" ++ name ++ "' accepts at most " ++ toString most ++ " argument(s), found "
      ++ toString count
  | nestedOperator inner outer =>
    "operator '" ++ inner ++ "' cannot be nested inside operator '" ++ outer ++ "'"
  | localInField operator name =>
    "field of operator '" ++ operator ++ "' cannot reference local value '" ++ name ++ "'"
  | fieldWithoutColumn operator =>
    "field of operator '" ++ operator ++ "' must reference row data"
  | notConstant found => "operator parameters must be constant; found " ++ found.phrase
  | described text => text

end RowExpr
