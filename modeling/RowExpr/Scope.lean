/-
# Names and scopes

What a name means inside a row function: the row parameter, the operator namespace, a constant, a
local, or one of the ambient names of the place where generated code runs, which no expression may
reach.
-/
import RowExpr.Error
import RowExpr.Stmt

namespace RowExpr

/-- The two names that a row function is read with. -/
structure Names where
  /-- The row parameter, if there is one. -/
  param : Option String
  /-- The operator namespace. -/
  space : String

/-- Whether a name is the row parameter. -/
def Names.isParam (names : Names) (name : String) : Bool := names.param == some name

/-- The names of the ambient bindings. -/
def ambientNames : List String := [
  "globalThis", "global", "window", "self", "document", "arguments", "Object", "Function", "Array",
  "Number", "String", "Boolean", "Symbol", "BigInt", "Math", "Date", "RegExp", "JSON", "Reflect",
  "Proxy", "Promise", "Error", "Map", "Set", "WeakMap", "WeakSet", "Intl", "eval", "require",
  "module", "exports", "process", "console", "import"]

/-- The properties that lead to constructors and prototypes. -/
def prototypeNames : List String := ["constructor", "__proto__", "prototype"]

/-- The locals of one block. -/
abbrev Scope := List (String × DeclKind)

/-- The locals that can be seen at one place. -/
structure Locals where
  /-- The locals of the innermost block so far. -/
  current : Scope := []
  /-- Those of the blocks around it, from the inside out. -/
  outer : List Scope := []

namespace Locals

/-- How the local that a name stands for was declared. -/
def kind? (locals : Locals) (name : String) : Option DeclKind :=
  (locals.current :: locals.outer).findSome? (·.lookup name)

/-- Whether a name stands for a local. -/
def has (locals : Locals) (name : String) : Bool := (locals.kind? name).isSome

/-- The locals at the start of a block. -/
def enter (locals : Locals) : Locals where
  current := []
  outer := locals.current :: locals.outer

/-- The locals after one more declaration. The names with another meaning are reserved, and a block
declares a name once. -/
def declare (locals : Locals) (names : Names) (kind : DeclKind) (name : String) :
    Except Cause Locals :=
  if names.isParam name || name == names.space || (Constant.ofName? name).isSome then
    .error (.rejected (.reservedName name))
  else if ambientNames.contains name then .error (.rejected (.shadowsGlobal name))
  else if (locals.current.lookup name).isSome then .error (.rejected (.redeclared name))
  else .ok { locals with current := (name, kind) :: locals.current }

end Locals

end RowExpr
