/-
# Which row functions are accepted

Statements declare locals, choose and return; loops are refused, and a `break` only leaves a
switch.
-/
import RowExpr.Expr.Check
import RowExpr.Grammar.Function

namespace RowExpr

namespace Stmt

/-- Accepts an expression that may be missing. -/
def checkExpr? (names : Names) (locals : Locals) : Option Expr → Except Cause Unit
  | some e => e.check names locals
  | none => .ok ()

mutual

/-- Accepts a statement at a place where `locals` can be seen, inside a switch or not, and gives the
locals that can be seen after it. -/
def check (names : Names) (inSwitch : Bool) (locals : Locals) : Stmt → Except Cause Locals
  | expr value => do
    value.check names locals
    return locals
  | declare kind name init => do
    checkExpr? names locals init
    locals.declare names kind name
  | block body => do
    discard (checkList names inSwitch locals.enter body)
    return locals
  | if_ test yes no => do
    test.check names locals
    discard (check names inSwitch locals.enter yes)
    match no with
    | some s => discard (check names inSwitch locals.enter s)
    | none => .ok ()
    return locals
  | switch subject arms => do
    subject.check names locals
    discard (checkArms names locals.enter arms)
    return locals
  | return_ value => do
    checkExpr? names locals value
    return locals
  | break_ => if inSwitch then .ok locals else .error (.rejected .breakOutsideSwitch)
  | continue_ => .error (.rejected .continues)
  | empty => .ok locals
  | for_ _ _ _ _ => .error (.rejected (.loop .steps))
  | forEach _ _ of _ _ => .error (.rejected (.loop (if of then .values else .keys)))
  | while_ _ _ => .error (.rejected (.loop .while_))
  | doWhile _ _ => .error (.rejected (.loop .doWhile))

/-- Accepts statements, one after the other. -/
def checkList (names : Names) (inSwitch : Bool) (locals : Locals) :
    List Stmt → Except Cause Locals
  | [] => .ok locals
  | s :: rest => do
    let after ← check names inSwitch locals s
    checkList names inSwitch after rest

/-- Accepts the arms of a switch, which share one block. -/
def checkArms (names : Names) (locals : Locals) : List (Arm Stmt) → Except Cause Locals
  | [] => .ok locals
  | ⟨test, body⟩ :: rest => do
    checkExpr? names locals test
    let after ← checkList names true locals body
    checkArms names after rest

end

end Stmt

namespace RowFunction

/-- The names that a row function is read with. -/
def names (f : RowFunction) (space : String) : Names := ⟨f.param, space⟩

/-- Accepts a row function. -/
def check (f : RowFunction) (space : String) : Except Cause Unit :=
  match f.body with
  | .expr value => value.check (f.names space) {}
  | .block body => discard (Stmt.checkList (f.names space) false {} body)

/-- The row function that a text writes, if it is accepted. -/
def ofText (text : String) (space : String) : Except Cause RowFunction := do
  let f ← (RowFunction.parse text).mapError Cause.malformed
  f.check space
  return f

end RowFunction

end RowExpr
