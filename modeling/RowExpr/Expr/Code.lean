/-
# The code of expressions

The text that stands for an expression in generated code. Every operation is in parentheses, so
the text never depends on how tightly operators bind, and literals are written as they were read.
The code of a row function has three parameters: the number of the current row, the table of
columns, and the results of the operators; scalar functions are reached through one more name.
-/
import RowExpr.Expr.Basic
import RowExpr.Text.Quoted

namespace RowExpr

namespace Code

/-- The parameter that holds the number of the current row. -/
def rowParam : String := "row"

/-- The parameter that holds the columns. -/
def dataParam : String := "data"

/-- The parameter that holds the results of the operators. -/
def opParam : String := "op"

/-- The parameters of generated code. -/
def params : List String := [rowParam, dataParam, opParam]

/-- The name through which generated code reaches scalar functions. -/
def functions : String := "fun"

/-- Whether `c` may begin a plain name. -/
def isPlainStart (c : Char) : Bool := c.isAlpha || c == '_' || c == '$'

/-- Whether `c` may continue a plain name. -/
def isPlainPart (c : Char) : Bool := c.isAlphanum || c == '_' || c == '$'

/-- Whether a text is a name of ASCII letters, digits, `_` and `$`, so that it may follow a dot. -/
def isPlainName (name : String) : Bool :=
  match name.toList with
  | [] => false
  | c :: rest => isPlainStart c && rest.all isPlainPart

/-- The value of a column at the current row. -/
def column (name : String) : String :=
  if isPlainName name then dataParam ++ "." ++ name ++ ".get(" ++ rowParam ++ ")"
  else
    dataParam ++ "[" ++ String.ofList (Text.jsonQuote name.toList) ++ "].get(" ++ rowParam ++ ")"

end Code

/-- The code of a literal: its spelling. -/
def Literal.code : Literal → String
  | number _ raw => raw
  | string _ raw => raw
  | boolean value => toString value
  | null => "null"

namespace Expr

/-- Whether the code of an expression does not read as the owner of a member without parentheses. -/
def wrapsAsOwner : Expr → Bool
  | literal (.number _ _) | constant _ => true
  | _ => false

mutual

/-- The code of an expression. -/
def code : Expr → String
  | literal value => value.code
  | array items => "[" ++ codeOfList items ++ "]"
  | object entries => "(\x7b" ++ codeOfEntries entries ++ "\x7d)"
  | template head parts => "`" ++ head ++ codeOfParts parts ++ "`"
  | identifier name => name
  | this => "this"
  | member owner name =>
    (if owner.wrapsAsOwner then "(" ++ code owner ++ ")" else code owner) ++ "." ++ name
  | index owner key =>
    (if owner.wrapsAsOwner then "(" ++ code owner ++ ")" else code owner)
      ++ "[" ++ code key ++ "]"
  | call callee args => code callee ++ "(" ++ codeOfList args ++ ")"
  | new callee args => "(new " ++ code callee ++ "(" ++ codeOfList args ++ "))"
  | unary op argument =>
    "(" ++ op.spelling ++ (if op.isWord then " " else "") ++ code argument ++ ")"
  | update op true argument => "(" ++ op.spelling ++ code argument ++ ")"
  | update op false argument => "(" ++ code argument ++ op.spelling ++ ")"
  | binary op left right =>
    let gap := if op.isWord then " " else ""
    "(" ++ code left ++ gap ++ op.spelling ++ gap ++ code right ++ ")"
  | logical op left right => "(" ++ code left ++ op.spelling ++ code right ++ ")"
  | conditional test yes no => "(" ++ code test ++ "?" ++ code yes ++ ":" ++ code no ++ ")"
  | assign op target value => "(" ++ code target ++ op.spelling ++ code value ++ ")"
  | column name => Code.column name
  | constant value => value.code
  | opRef id => Code.opParam ++ "[" ++ toString id ++ "]"
  | opCall name args => Code.functions ++ "." ++ name ++ "(" ++ codeOfList args ++ ")"
  | fnCall name args => Code.functions ++ "." ++ name ++ "(" ++ codeOfList args ++ ")"

/-- The code of expressions, separated by commas. -/
def codeOfList : List Expr → String
  | [] => ""
  | [e] => code e
  | e :: rest => code e ++ "," ++ codeOfList rest

/-- The code of the entries of an object, separated by commas. -/
def codeOfEntries : List (Entry Expr) → String
  | [] => ""
  | [entry] => codeOfEntry entry
  | entry :: rest => codeOfEntry entry ++ "," ++ codeOfEntries rest

/-- The code of an entry of an object, always with its value. -/
def codeOfEntry : Entry Expr → String
  | ⟨key, value, _⟩ => codeOfKey key ++ ":" ++ code value

/-- The code of the key of an entry. -/
def codeOfKey : Key Expr → String
  | .name name => name
  | .string _ raw => raw
  | .number _ raw => raw
  | .computed key => "[" ++ code key ++ "]"

/-- The code of the holes of a template, each with the text that follows it. -/
def codeOfParts : List (Expr × String) → String
  | [] => ""
  | (e, text) :: rest => "$\x7b" ++ code e ++ "\x7d" ++ text ++ codeOfParts rest

end

end Expr

end RowExpr
