/-
# Expressions

The trees of row expressions. A parsed expression has only the forms that can be written; bringing
it into canonical form and extracting its operators replaces some of them by the last five forms,
which name what the written ones mean: a column, a constant, a call of an operator, the result of
an operator, and a call of a function.
-/
import RowExpr.Expr.Constant
import RowExpr.Expr.Op
import RowExpr.Number.Format

namespace RowExpr

/-- A literal, with the spelling of a number or a string. -/
inductive Literal where
  | number (value : Float) (raw : String)
  | string (value raw : String)
  | boolean (value : Bool)
  | null

/-- The key of an object entry: written as it is, or computed by an expression `ε`. -/
inductive Key (ε : Type) where
  | name (name : String)
  | string (value raw : String)
  | number (value : Float) (raw : String)
  | computed (key : ε)

/-- An entry of an object literal. -/
structure Entry (ε : Type) where
  key : Key ε
  value : ε
  /-- Whether the entry is written as a name alone. -/
  shorthand : Bool

/-- A row expression. -/
inductive Expr where
  | literal (value : Literal)
  | array (items : List Expr)
  | object (entries : List (Entry Expr))
  /-- A template: text as written, then each expression with the text that follows it. -/
  | template (head : String) (parts : List (Expr × String))
  | identifier (name : String)
  | this
  /-- `owner.name` -/
  | member (owner : Expr) (name : String)
  /-- `owner[key]` -/
  | index (owner key : Expr)
  | call (callee : Expr) (args : List Expr)
  | new (callee : Expr) (args : List Expr)
  | unary (op : UnaryOp) (argument : Expr)
  | update (op : UpdateOp) (before : Bool) (argument : Expr)
  | binary (op : BinaryOp) (left right : Expr)
  | logical (op : LogicalOp) (left right : Expr)
  | conditional (test yes no : Expr)
  | assign (op : AssignOp) (target value : Expr)
  /-- The value of a column at the current row. -/
  | column (name : String)
  | constant (value : Constant)
  /-- A call by name, before it is known what the name stands for. -/
  | opCall (name : String) (args : List Expr)
  /-- The result of the operator with the given number. -/
  | opRef (id : Nat)
  /-- A call of a scalar function. -/
  | fnCall (name : String) (args : List Expr)

/-- The name that a key stands for, unless it is computed. -/
def Key.staticName? {ε : Type} : Key ε → Option String
  | name text => some text
  | string value _ => some value
  | number value _ => some (Number.format value)
  | computed _ => none

namespace Expr

/-- The name that an expression stands for as a key, when it is known without evaluation. -/
def keyName? : Expr → Option String
  | literal (.string value _) => some value
  | literal (.number value _) => some (Number.format value)
  | _ => none

/-- The property that a member access names, when it is known without evaluation. -/
def property? : Expr → Option String
  | member _ name => some name
  | index _ key => key.keyName?
  | _ => none

/-- The name at the left end of a chain of member accesses. -/
def root? : Expr → Option String
  | identifier name => some name
  | member owner _ => owner.root?
  | index owner _ => owner.root?
  | _ => none

/-- Whether the expression is a chain of names joined by dots. -/
def isPath : Expr → Bool
  | identifier _ => true
  | member owner _ => owner.isPath
  | _ => false

/-- Whether the expression is the operator namespace, alone or at the end of a path. -/
def isNamespace (space : String) : Expr → Bool
  | identifier name => name == space
  | member owner name => name == space && owner.isPath
  | _ => false

/-- The operator that an expression names when it is called: a bare name, or a member of the
namespace whose name is known. -/
def operatorName? (space : String) : Expr → Option String
  | identifier name => some name
  | member owner name => if owner.isNamespace space then some name else none
  | index owner key =>
    match key.keyName? with
    | some name => if owner.isNamespace space then some name else none
    | none => none
  | _ => none

mutual

/-- Every expression inside `e`, itself included, from the outside in and from left to right. -/
def subterms (e : Expr) : List Expr :=
  e :: match e with
  | array items => subtermsOfList items
  | object entries => subtermsOfEntries entries
  | template _ parts => subtermsOfParts parts
  | member owner _ => subterms owner
  | index owner key => subterms owner ++ subterms key
  | call callee args => subterms callee ++ subtermsOfList args
  | new callee args => subterms callee ++ subtermsOfList args
  | unary _ argument => subterms argument
  | update _ _ argument => subterms argument
  | binary _ left right => subterms left ++ subterms right
  | logical _ left right => subterms left ++ subterms right
  | conditional test yes no => subterms test ++ subterms yes ++ subterms no
  | assign _ target value => subterms target ++ subterms value
  | opCall _ args => subtermsOfList args
  | fnCall _ args => subtermsOfList args
  | literal _ | identifier _ | this | column _ | constant _ | opRef _ => []

/-- The expressions inside a list of expressions. -/
def subtermsOfList : List Expr → List Expr
  | [] => []
  | e :: rest => subterms e ++ subtermsOfList rest

/-- The expressions inside the entries of an object, a computed key before its value. -/
def subtermsOfEntries : List (Entry Expr) → List Expr
  | [] => []
  | ⟨.computed key, value, _⟩ :: rest => subterms key ++ subterms value ++ subtermsOfEntries rest
  | ⟨_, value, _⟩ :: rest => subterms value ++ subtermsOfEntries rest

/-- The expressions inside the holes of a template. -/
def subtermsOfParts : List (Expr × String) → List Expr
  | [] => []
  | (e, _) :: rest => subterms e ++ subtermsOfParts rest

end

/-- Whether the expression is the value of a column. -/
def isColumn : Expr → Bool
  | column _ => true
  | _ => false

/-- Whether the expression reads a column anywhere. -/
def readsRow (e : Expr) : Bool := e.subterms.any isColumn

end Expr

end RowExpr
