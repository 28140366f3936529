/-
# Taking operators out of row functions

Statements give up their operators in the order in which they are written. Loops are never
accepted and are left as they are.
-/
import RowExpr.Expr.Extract
import RowExpr.Stmt

namespace RowExpr

namespace Stmt

/-- Takes the operators out of an expression that may be missing. -/
def extractExpr? (registry : Registry) (window : Option Window) :
    Option Expr → Extract (Option Expr)
  | some e => do
    let e ← e.extract registry window
    return some e
  | none => return none

mutual

/-- Takes the operators out of a statement. -/
def extract (registry : Registry) (window : Option Window) : Stmt → Extract Stmt
  | expr value => do
    let value ← value.extract registry window
    return expr value
  | declare kind name init => do
    let init ← extractExpr? registry window init
    return declare kind name init
  | block body => do
    let body ← extractList registry window body
    return block body
  | if_ test yes no => do
    let test ← test.extract registry window
    let yes ← extract registry window yes
    let no ← extractOption registry window no
    return if_ test yes no
  | switch subject arms => do
    let subject ← subject.extract registry window
    let arms ← extractArms registry window arms
    return switch subject arms
  | return_ value => do
    let value ← extractExpr? registry window value
    return return_ value
  | break_ => return break_
  | continue_ => return continue_
  | empty => return empty
  | for_ init test update body => return for_ init test update body
  | forEach kind name of iterable body => return forEach kind name of iterable body
  | while_ test body => return while_ test body
  | doWhile body test => return doWhile body test

/-- Takes the operators out of a statement that may be missing. -/
def extractOption (registry : Registry) (window : Option Window) :
    Option Stmt → Extract (Option Stmt)
  | some s => do
    let s ← extract registry window s
    return some s
  | none => return none

/-- Takes the operators out of statements. -/
def extractList (registry : Registry) (window : Option Window) : List Stmt → Extract (List Stmt)
  | [] => return []
  | s :: rest => do
    let s ← extract registry window s
    let rest ← extractList registry window rest
    return s :: rest

/-- Takes the operators out of the arms of a switch. -/
def extractArms (registry : Registry) (window : Option Window) :
    List (Arm Stmt) → Extract (List (Arm Stmt))
  | [] => return []
  | ⟨test, body⟩ :: rest => do
    let test ← extractExpr? registry window test
    let body ← extractList registry window body
    let rest ← extractArms registry window rest
    return ⟨test, body⟩ :: rest

end

end Stmt

/-- Takes the operators out of the body of a row function. -/
def Body.extract (registry : Registry) (window : Option Window) : Body → Extract Body
  | expr value => do
    let value ← value.extract registry window
    return expr value
  | block body => do
    let body ← Stmt.extractList registry window body
    return block body

/-- Takes the operators out of a row function. The calls are added to `calls`, and those that were
added before a failure stay. -/
def RowFunction.extract (f : RowFunction) (registry : Registry) (window : Option Window)
    (calls : List OperatorCall) : Except Cause RowFunction × List OperatorCall :=
  let (body, calls) := (f.body.extract registry window).run.run calls
  (body.map fun b => { f with body := b }, calls)

end RowExpr
