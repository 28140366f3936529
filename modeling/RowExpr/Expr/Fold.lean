/-
# The value of a constant expression

Parameters of operators have to be known before any row is read. An expression is constant if none
of its parts reads a row, a local or an operator, wherever it stands: also in a branch that its
value does not depend on. A constant expression is evaluated with the functions of a registry.
-/
import RowExpr.Error
import RowExpr.Expr.Basic
import RowExpr.Registry.Basic
import RowExpr.Value.Operator

namespace RowExpr

/-- The cause that something is not constant. -/
def Cause.notConstant (found : Variable) : Cause := .argument (.notConstant found)

/-- The value of a literal. -/
def Literal.value : Literal → Value
  | number value _ => .number value
  | string value _ => .string value
  | boolean value => .boolean value
  | null => .null

/-- The value of a named constant. -/
def Constant.value (c : Constant) : Value :=
  match c.value? with
  | some x => .number x
  | none => .undefined

namespace Expr

/-- What keeps an expression from being constant, apart from its parts. -/
def obstacle? (registry : Registry) : Expr → Option Cause
  | column name => some (.notConstant (.column name))
  | identifier name => some (.notConstant (.localValue name))
  | opRef _ => some (.notConstant .operatorResult)
  | call _ _ => some (.notConstant .methodCall)
  | assign _ _ _ => some (.notConstant .assignment)
  | update _ _ _ => some (.notConstant .assignment)
  | this => some (.notConstant .objectReference)
  | new _ _ => some (.notConstant .objectReference)
  | unary .delete _ => some (.notConstant .deletion)
  | opCall name _ | fnCall name _ =>
    match registry.lookup? name with
    | some (.function _) => none
    | some (.operator _) => some (.notConstant (.operator name))
    | none => some (.unknownOperator name)
  | _ => none

/-- Applies the function of a name to the arguments that `args` computes, if it takes `count`. -/
def applyFunction (registry : Registry) (name : String) (count : Nat)
    (args : Except Cause (List Value)) : Except Cause Value :=
  match registry.lookup? name with
  | some (.function f) =>
    if f.accepts count then args.map f.apply
    else .error (.argument (.functionArity name count))
  | some (.operator _) => .error (.notConstant (.operator name))
  | none => .error (.unknownOperator name)

mutual

/-- The value of an expression without obstacles. -/
def eval (registry : Registry) : Expr → Except Cause Value
  | literal value => .ok value.value
  | constant c => .ok c.value
  | array items => do
    let values ← evalList registry items
    return .array values
  | object entries => do
    let members ← evalEntries registry [] entries
    return .object members
  | template head parts => do
    let rest ← evalParts registry parts
    return .string (head ++ rest)
  | member owner name => do
    let value ← eval registry owner
    return value.member (.string name)
  | index owner key => do
    let value ← eval registry owner
    let key ← eval registry key
    return value.member key
  | unary op argument => do
    let value ← eval registry argument
    match Value.unary op value with
    | some v => .ok v
    | none => .error (.notConstant .deletion)
  | binary op left right => do
    let a ← eval registry left
    let b ← eval registry right
    match Value.binary op a b with
    | some v => .ok v
    | none => .error (.notConstant (.relation op))
  | logical op left right => do
    let value ← eval registry left
    if value.settles op then .ok value else eval registry right
  | conditional test yes no => do
    let value ← eval registry test
    if value.truth then eval registry yes else eval registry no
  | opCall name args => applyFunction registry name args.length (evalList registry args)
  | fnCall name args => applyFunction registry name args.length (evalList registry args)
  | column name => .error (.notConstant (.column name))
  | identifier name => .error (.notConstant (.localValue name))
  | opRef _ => .error (.notConstant .operatorResult)
  | call _ _ => .error (.notConstant .methodCall)
  | assign _ _ _ => .error (.notConstant .assignment)
  | update _ _ _ => .error (.notConstant .assignment)
  | this => .error (.notConstant .objectReference)
  | new _ _ => .error (.notConstant .objectReference)

/-- The values of expressions, from left to right. -/
def evalList (registry : Registry) : List Expr → Except Cause (List Value)
  | [] => .ok []
  | e :: rest => do
    let value ← eval registry e
    let values ← evalList registry rest
    return value :: values

/-- The members that the entries of an object give, added to `members`. -/
def evalEntries (registry : Registry) (members : Table Value) :
    List (Entry Expr) → Except Cause (Table Value)
  | [] => .ok members
  | ⟨key, value, _⟩ :: rest => do
    let name ← evalKey registry key
    let v ← eval registry value
    evalEntries registry (members.insert name v) rest

/-- The name that a key stands for. -/
def evalKey (registry : Registry) : Key Expr → Except Cause String
  | .name name => .ok name
  | .string value _ => .ok value
  | .number value _ => .ok (Number.format value)
  | .computed key => do
    let value ← eval registry key
    return value.toText

/-- The text of the holes of a template, each with the text that follows it. -/
def evalParts (registry : Registry) : List (Expr × String) → Except Cause String
  | [] => .ok ""
  | (e, text) :: rest => do
    let value ← eval registry e
    let tail ← evalParts registry rest
    return value.toText ++ text ++ tail

end

/-- The value of a constant expression, or the first obstacle from the outside in and from left
to right. -/
def fold (registry : Registry) (e : Expr) : Except Cause Value :=
  match e.subterms.findSome? (obstacle? registry) with
  | some cause => .error cause
  | none => e.eval registry

end Expr

end RowExpr
