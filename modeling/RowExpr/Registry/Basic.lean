/-
# Registries

A registry says what may be called by name: operators, which see a whole group or window of rows
and are computed apart from the row code, and scalar functions, which stay in it. A name that is
both is an operator.
-/
import RowExpr.Value.Basic

namespace RowExpr

/-- The kinds of operators. -/
inductive OperatorKind where
  /-- One value for a group of rows. -/
  | aggregate
  /-- One value for each row, from the rows around it. -/
  | window
deriving DecidableEq, Repr

/-- The arguments that an operator takes: first its fields, which read the row, then up to
`params` constants. -/
structure Operator where
  kind : OperatorKind
  fields : Nat
  params : Nat
deriving DecidableEq, Repr

/-- A function of values. -/
structure ScalarFunction where
  /-- The least number of arguments. -/
  least : Nat
  /-- The largest number of arguments, if there is one. -/
  most : Option Nat
  apply : List Value → Value

/-- The limit that the number `most` sets. Numbers of arguments have 64 bits, and the largest such
number sets no limit. -/
def ScalarFunction.limit? (most : Nat) : Option Nat :=
  if most < 0xffffffffffffffff then some most else none

/-- Whether a function takes `count` arguments. -/
def ScalarFunction.accepts (f : ScalarFunction) (count : Nat) : Bool :=
  decide (f.least ≤ count) && f.most.all (decide <| count ≤ ·)

/-- What a name stands for when it is called. -/
inductive Callable where
  | operator (operator : Operator)
  | function (function : ScalarFunction)

/-- The operators and functions that may be called. -/
structure Registry where
  operators : Table Operator
  functions : Table ScalarFunction

namespace Registry

/-- The registry of nothing. -/
def empty : Registry where
  operators := []
  functions := []

/-- The operator of a name. -/
def operator? (r : Registry) (name : String) : Option Operator := r.operators.get? name

/-- The function of a name. -/
def function? (r : Registry) (name : String) : Option ScalarFunction := r.functions.get? name

/-- What a name stands for. -/
def lookup? (r : Registry) (name : String) : Option Callable :=
  match r.operator? name with
  | some o => some (.operator o)
  | none => (r.function? name).map .function

/-- Whether a name is an operator of the given kind. -/
def hasKind (r : Registry) (kind : OperatorKind) (name : String) : Bool :=
  (r.operator? name).any (·.kind = kind)

/-- The registry with one more operator, or another shape for one that it had. -/
def addOperator (r : Registry) (name : String) (o : Operator) : Registry :=
  { r with operators := r.operators.insert name o }

/-- The registry with one more function, or another meaning for one that it had. -/
def addFunction (r : Registry) (name : String) (f : ScalarFunction) : Registry :=
  { r with functions := r.functions.insert name f }

end Registry

end RowExpr
