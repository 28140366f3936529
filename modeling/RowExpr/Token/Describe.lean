/-
# Tokens in messages

How a message about a source text names the token it stumbled over.
-/
import RowExpr.Number.Format
import RowExpr.Text.Quoted
import RowExpr.Token

namespace RowExpr

/-- The name of a reserved word: its spelling with a capital. -/
def Keyword.label (word : Keyword) : String := word.spelling.capitalize

/-- The name of a mark. -/
def Punct.label : Punct → String
  | arrow => "Arrow"
  | dot => "Dot"
  | comma => "Comma"
  | semicolon => "Semicolon"
  | colon => "Colon"
  | question => "Question"
  | lparen => "LParen"
  | rparen => "RParen"
  | lbracket => "LBracket"
  | rbracket => "RBracket"
  | lbrace => "LBrace"
  | rbrace => "RBrace"
  | plus => "Plus"
  | minus => "Minus"
  | star => "Star"
  | slash => "Slash"
  | percent => "Percent"
  | starStar => "StarStar"
  | plusPlus => "PlusPlus"
  | minusMinus => "MinusMinus"
  | eqEq => "EqEq"
  | eqEqEq => "EqEqEq"
  | notEq => "NotEq"
  | notEqEq => "NotEqEq"
  | lt => "Lt"
  | gt => "Gt"
  | ltEq => "LtEq"
  | gtEq => "GtEq"
  | bang => "Bang"
  | tilde => "Tilde"
  | andAnd => "AndAnd"
  | orOr => "OrOr"
  | questionQuestion => "QuestionQuestion"
  | amp => "Amp"
  | pipe => "Pipe"
  | caret => "Caret"
  | shl => "Shl"
  | shr => "Shr"
  | ushr => "UShr"

/-- The name of an assignment mark. -/
def AssignOp.label : AssignOp → String
  | plain => "Assign"
  | add => "CompoundAssign(Add)"
  | subtract => "CompoundAssign(Subtract)"
  | multiply => "CompoundAssign(Multiply)"
  | divide => "CompoundAssign(Divide)"
  | modulo => "CompoundAssign(Modulo)"
  | power => "CompoundAssign(Power)"

/-- A record with the given fields. -/
def describeRecord (name : String) (fields : List (String × String)) : String :=
  name ++ " \x7b " ++ ", ".intercalate (fields.map fun (key, value) => key ++ ": " ++ value)
    ++ " \x7d"

/-- A list of described items. -/
def describeList (items : List String) : String := "[" ++ ", ".intercalate items ++ "]"

/-- A hole as a message shows it. -/
def Hole.describe (hole : Hole) : String :=
  "(" ++ Text.messageQuote hole.source ++ ", " ++ toString hole.position ++ ")"

/-- A token as a message shows it. -/
def Token.describe : Token → String
  | number value raw =>
    describeRecord "Number"
      [("value", Number.messageLayout.text value), ("raw", Text.messageQuote raw)]
  | string value raw =>
    describeRecord "String" [("value", Text.messageQuote value), ("raw", Text.messageQuote raw)]
  | template head parts =>
    describeRecord "Template"
      [("quasis", describeList ((head :: parts.map (·.2)).map Text.messageQuote)),
        ("exprs", describeList (parts.map (·.1.describe)))]
  | boolean value => "Boolean(" ++ toString value ++ ")"
  | null => "Null"
  | identifier name => "Identifier(" ++ Text.messageQuote name ++ ")"
  | keyword word => "Keyword(" ++ word.label ++ ")"
  | punct mark => mark.label
  | assign op => op.label
  | eof => "Eof"

end RowExpr
