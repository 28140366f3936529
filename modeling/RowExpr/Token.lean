/-
# Tokens

The words, literals and marks that a row function is written with. A literal keeps its spelling
next to its value, and a template keeps the source text of its holes together with the place where
each of them starts, so that a hole can be read later with positions of the whole text.
-/
import RowExpr.Expr.Op

namespace RowExpr

/-- Reserved words. -/
inductive Keyword where
  | const
  | let_
  | var
  | if_
  | else_
  | switch
  | case
  | default
  | return_
  | break_
  | continue_
  | for_
  | while_
  | do_
  | new
  | this
  | function
  | typeof
  | void
  | delete
  | in_
  | instanceof
deriving DecidableEq, Repr

namespace Keyword

/-- Every reserved word. -/
def all : List Keyword :=
  [const, let_, var, if_, else_, switch, case, default, return_, break_, continue_, for_, while_,
    do_, new, this, function, typeof, void, delete, in_, instanceof]

/-- The spelling of a reserved word. -/
def spelling : Keyword → String
  | const => "const"
  | let_ => "let"
  | var => "var"
  | if_ => "if"
  | else_ => "else"
  | switch => "switch"
  | case => "case"
  | default => "default"
  | return_ => "return"
  | break_ => "break"
  | continue_ => "continue"
  | for_ => "for"
  | while_ => "while"
  | do_ => "do"
  | new => "new"
  | this => "this"
  | function => "function"
  | typeof => "typeof"
  | void => "void"
  | delete => "delete"
  | in_ => "in"
  | instanceof => "instanceof"

/-- The reserved word that `word` spells, if any. -/
def ofWord? (word : String) : Option Keyword := all.find? (·.spelling == word)

end Keyword

/-- Punctuation and operator marks, assignment marks apart. -/
inductive Punct where
  | arrow
  | dot
  | comma
  | semicolon
  | colon
  | question
  | lparen
  | rparen
  | lbracket
  | rbracket
  | lbrace
  | rbrace
  | plus
  | minus
  | star
  | slash
  | percent
  | starStar
  | plusPlus
  | minusMinus
  | eqEq
  | eqEqEq
  | notEq
  | notEqEq
  | lt
  | gt
  | ltEq
  | gtEq
  | bang
  | tilde
  | andAnd
  | orOr
  | questionQuestion
  | amp
  | pipe
  | caret
  | shl
  | shr
  | ushr
deriving DecidableEq, Repr

/-- The spelling of a mark. -/
def Punct.spelling : Punct → String
  | arrow => "=>"
  | dot => "."
  | comma => ","
  | semicolon => ";"
  | colon => ":"
  | question => "?"
  | lparen => "("
  | rparen => ")"
  | lbracket => "["
  | rbracket => "]"
  | lbrace => "\x7b"
  | rbrace => "\x7d"
  | plus => "+"
  | minus => "-"
  | star => "*"
  | slash => "/"
  | percent => "%"
  | starStar => "**"
  | plusPlus => "++"
  | minusMinus => "--"
  | eqEq => "=="
  | eqEqEq => "==="
  | notEq => "!="
  | notEqEq => "!=="
  | lt => "<"
  | gt => ">"
  | ltEq => "<="
  | gtEq => ">="
  | bang => "!"
  | tilde => "~"
  | andAnd => "&&"
  | orOr => "||"
  | questionQuestion => "??"
  | amp => "&"
  | pipe => "|"
  | caret => "^"
  | shl => "<<"
  | shr => ">>"
  | ushr => ">>>"

/-- A hole of a template: the source text between its braces and the position of its first
character in the whole text. -/
structure Hole where
  source : String
  position : Nat
deriving DecidableEq, Repr

/-- A token. -/
inductive Token where
  | number (value : Float) (raw : String)
  | string (value raw : String)
  /-- A template: the text up to the first hole, as written, then each hole with the text up to
  the next one. -/
  | template (head : String) (parts : List (Hole × String))
  | boolean (value : Bool)
  | null
  | identifier (name : String)
  | keyword (word : Keyword)
  | punct (mark : Punct)
  | assign (op : AssignOp)
  /-- The end of the text. -/
  | eof

/-- A token and the position of its first character. -/
structure Lexeme where
  position : Nat
  token : Token

end RowExpr
