/-
# Statements and row functions

A row function has at most one parameter, the row, and a body that is an expression or a block of
statements. Loops have statements too, so that they can be refused by name.
-/
import RowExpr.Expr.Basic

namespace RowExpr

/-- The kinds of declarations. -/
inductive DeclKind where
  | const
  | let_
  | var
deriving DecidableEq, Repr

/-- The spelling of a kind of declaration. -/
def DeclKind.spelling : DeclKind → String
  | const => "const"
  | let_ => "let"
  | var => "var"

/-- One arm of a switch over statements `σ`; the default arm has no test. -/
structure Arm (σ : Type) where
  test : Option Expr
  body : List σ

/-- A statement. -/
inductive Stmt where
  | expr (value : Expr)
  | declare (kind : DeclKind) (name : String) (init : Option Expr)
  | block (body : List Stmt)
  | if_ (test : Expr) (yes : Stmt) (no : Option Stmt)
  | switch (subject : Expr) (arms : List (Arm Stmt))
  | return_ (value : Option Expr)
  | break_
  | continue_
  | empty
  | for_ (init : Option Stmt) (test update : Option Expr) (body : Stmt)
  /-- A loop over the members of a value: its values for `of`, its keys otherwise. -/
  | forEach (kind : Option DeclKind) (name : String) (of : Bool) (iterable : Expr) (body : Stmt)
  | while_ (test : Expr) (body : Stmt)
  | doWhile (body : Stmt) (test : Expr)

/-- The body of a row function. -/
inductive Body where
  | expr (value : Expr)
  | block (body : List Stmt)

/-- A row function. -/
structure RowFunction where
  /-- The name of the row parameter, if there is one. -/
  param : Option String
  body : Body

end RowExpr
