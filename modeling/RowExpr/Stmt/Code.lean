/-
# The code of statements

The text that stands for statements in generated code. Each statement of a block or an arm ends in
a semicolon, and so does the first branch of a choice that has a second one, unless it is a block.
-/
import RowExpr.Expr.Code
import RowExpr.Stmt

namespace RowExpr

namespace Stmt

/-- Whether a statement is a block. -/
def isBlock : Stmt → Bool
  | block _ => true
  | _ => false

/-- The code of an expression that may be missing. -/
def codeOfExpr? : Option Expr → String
  | some e => e.code
  | none => ""

mutual

/-- The code of a statement. -/
def code : Stmt → String
  | expr value => value.code
  | declare kind name none => kind.spelling ++ " " ++ name
  | declare kind name (some init) => kind.spelling ++ " " ++ name ++ "=" ++ init.code
  | block body => "\x7b" ++ codeOfList body ++ "\x7d"
  | if_ test yes none => "if (" ++ test.code ++ ")" ++ code yes
  | if_ test yes (some no) =>
    "if (" ++ test.code ++ ")" ++ code yes ++ (if yes.isBlock then "" else ";") ++ " else "
      ++ code no
  | switch subject arms => "switch (" ++ subject.code ++ ") \x7b" ++ codeOfArms arms ++ "\x7d"
  | return_ none => "return"
  | return_ (some value) => "return " ++ value.code
  | break_ => "break"
  | continue_ => "continue"
  | empty => ""
  | for_ init test update body =>
    "for (" ++ codeOfStmt? init ++ ";" ++ codeOfExpr? test ++ ";" ++ codeOfExpr? update ++ ")"
      ++ code body
  | forEach kind name of iterable body =>
    "for (" ++ (match kind with
      | some k => k.spelling ++ " "
      | none => "") ++ name ++ (if of then " of " else " in ") ++ iterable.code ++ ")" ++ code body
  | while_ test body => "while (" ++ test.code ++ ")" ++ code body
  | doWhile body test => "do " ++ code body ++ " while (" ++ test.code ++ ")"

/-- The code of a statement that may be missing. -/
def codeOfStmt? : Option Stmt → String
  | some s => code s
  | none => ""

/-- The code of statements, each with a semicolon. -/
def codeOfList : List Stmt → String
  | [] => ""
  | s :: rest => code s ++ ";" ++ codeOfList rest

/-- The code of the arms of a switch. -/
def codeOfArms : List (Arm Stmt) → String
  | [] => ""
  | ⟨some test, body⟩ :: rest => "case " ++ test.code ++ ": " ++ codeOfList body ++ codeOfArms rest
  | ⟨none, body⟩ :: rest => "default: " ++ codeOfList body ++ codeOfArms rest

end

end Stmt

/-- The code of the body of a row function. -/
def Body.code : Body → String
  | expr value => value.code
  | block body => (Stmt.block body).code

end RowExpr
