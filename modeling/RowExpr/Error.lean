/-
# Errors of a compilation

A compilation stops at the first error. An error has a cause, and once it leaves the definition
where it arose it also has the name of that definition.
-/
import RowExpr.Error.Argument
import RowExpr.Error.Malformed
import RowExpr.Error.Rejection

namespace RowExpr

/-- The cause of an error. -/
inductive Cause where
  /-- The text is not a row function. -/
  | malformed (malformed : Malformed)
  /-- The function does something that is not allowed. -/
  | rejected (rejection : Rejection)
  /-- A name stands for nothing. -/
  | reference (fault : ReferenceFault)
  /-- An argument of a call is not acceptable. -/
  | argument (fault : ArgumentFault)
  /-- A name that is called is not registered. -/
  | unknownOperator (name : String)
  /-- The host does not accept the generated code. -/
  | host (text : String)

/-- The wording of a cause. -/
def Cause.message : Cause → String
  | malformed m =>
    "Syntax error at position " ++ toString m.position ++ ": " ++ m.fault.message
  | rejected r => "Invalid expression: " ++ r.message
  | reference f => "Reference error: " ++ f.message
  | argument f => "Invalid operator argument: " ++ f.message
  | unknownOperator name => "Unrecognized operator: " ++ name
  | host text => "Host compiler error: " ++ text

/-- An error, and the definition in which it arose, if that is known. -/
structure CompileError where
  cause : Cause
  expression : Option String := none

/-- The wording of an error. -/
def CompileError.message (e : CompileError) : String :=
  match e.expression with
  | none => e.cause.message
  | some name => "In expression '" ++ name ++ "': " ++ e.cause.message

/-- The error as one of the definition `name`, unless it already belongs to one. -/
def CompileError.inExpression (name : String) (e : CompileError) : CompileError :=
  match e.expression with
  | none => { e with expression := some name }
  | some _ => e

@[simp] theorem CompileError.cause_inExpression (name : String) (e : CompileError) :
    (e.inExpression name).cause = e.cause := by
  unfold inExpression
  split <;> rfl

/-- Only the first attribution counts. -/
@[simp] theorem CompileError.inExpression_inExpression (inner outer : String) (e : CompileError) :
    (e.inExpression inner).inExpression outer = e.inExpression inner := by
  obtain ⟨cause, _ | name⟩ := e <;> rfl

end RowExpr
