/-
# Canonical expressions

There are several ways to write a column, an operator call and a constant. In canonical form each
has one: the column by its name, the call by the name of the operator, the constant by itself.
-/
import RowExpr.Scope

namespace RowExpr.Expr

/-- Whether an expression is the row parameter. -/
def isParam (names : Names) : Expr → Bool
  | identifier name => names.isParam name
  | _ => false

mutual

/-- The canonical form of an expression. -/
def canonical (names : Names) : Expr → Expr
  | literal value => literal value
  | array items => array (canonicalList names items)
  | object entries => object (canonicalEntries names entries)
  | template head parts => template head (canonicalParts names parts)
  | identifier name =>
    match Constant.ofName? name with
    | some c => constant c
    | none => identifier name
  | this => this
  | member owner name =>
    if owner.isParam names then column name else member (canonical names owner) name
  | index owner key =>
    match owner.isParam names, key.keyName? with
    | true, some name => column name
    | _, _ => index (canonical names owner) (canonical names key)
  | call callee args =>
    match callee.operatorName? names.space with
    | some name => opCall name (canonicalList names args)
    | none => call (canonical names callee) (canonicalList names args)
  | new callee args => new (canonical names callee) (canonicalList names args)
  | unary op argument => unary op (canonical names argument)
  | update op before argument => update op before (canonical names argument)
  | binary op left right => binary op (canonical names left) (canonical names right)
  | logical op left right => logical op (canonical names left) (canonical names right)
  | conditional test yes no =>
    conditional (canonical names test) (canonical names yes) (canonical names no)
  | assign op target value => assign op (canonical names target) (canonical names value)
  | column name => column name
  | constant c => constant c
  | opCall name args => opCall name (canonicalList names args)
  | opRef id => opRef id
  | fnCall name args => fnCall name (canonicalList names args)

/-- The canonical forms of expressions. -/
def canonicalList (names : Names) : List Expr → List Expr
  | [] => []
  | e :: rest => canonical names e :: canonicalList names rest

/-- The entries of an object, with canonical expressions. -/
def canonicalEntries (names : Names) : List (Entry Expr) → List (Entry Expr)
  | [] => []
  | ⟨key, value, shorthand⟩ :: rest =>
    ⟨canonicalKey names key, canonical names value, shorthand⟩ :: canonicalEntries names rest

/-- The key of an entry, canonical if it is computed. -/
def canonicalKey (names : Names) : Key Expr → Key Expr
  | .computed key => .computed (canonical names key)
  | .name name => .name name
  | .string value raw => .string value raw
  | .number value raw => .number value raw

/-- The holes of a template, with canonical expressions. -/
def canonicalParts (names : Names) : List (Expr × String) → List (Expr × String)
  | [] => []
  | (e, text) :: rest => (canonical names e, text) :: canonicalParts names rest

end

end RowExpr.Expr
