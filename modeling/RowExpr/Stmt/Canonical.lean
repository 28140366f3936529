/-
# Canonical row functions

A row function is canonical when its expressions are. Loops are never accepted and are left as
they are.
-/
import RowExpr.Expr.Canonical

namespace RowExpr

namespace Stmt

mutual

/-- The canonical form of a statement. -/
def canonical (names : Names) : Stmt → Stmt
  | expr value => expr (value.canonical names)
  | declare kind name init => declare kind name (init.map (·.canonical names))
  | block body => block (canonicalList names body)
  | if_ test yes no =>
    if_ (test.canonical names) (canonical names yes) (canonicalOption names no)
  | switch subject arms => switch (subject.canonical names) (canonicalArms names arms)
  | return_ value => return_ (value.map (·.canonical names))
  | break_ => break_
  | continue_ => continue_
  | empty => empty
  | for_ init test update body => for_ init test update body
  | forEach kind name of iterable body => forEach kind name of iterable body
  | while_ test body => while_ test body
  | doWhile body test => doWhile body test

/-- The canonical form of a statement that may be missing. -/
def canonicalOption (names : Names) : Option Stmt → Option Stmt
  | some s => some (canonical names s)
  | none => none

/-- The canonical forms of statements. -/
def canonicalList (names : Names) : List Stmt → List Stmt
  | [] => []
  | s :: rest => canonical names s :: canonicalList names rest

/-- The arms of a switch, in canonical form. -/
def canonicalArms (names : Names) : List (Arm Stmt) → List (Arm Stmt)
  | [] => []
  | ⟨test, body⟩ :: rest =>
    ⟨test.map (·.canonical names), canonicalList names body⟩ :: canonicalArms names rest

end

end Stmt

/-- The canonical form of the body of a row function. -/
def Body.canonical (names : Names) : Body → Body
  | expr value => expr (value.canonical names)
  | block body => block (Stmt.canonicalList names body)

/-- The canonical form of a row function. -/
def RowFunction.canonical (f : RowFunction) (space : String) : RowFunction :=
  { f with body := f.body.canonical ⟨f.param, space⟩ }

end RowExpr
