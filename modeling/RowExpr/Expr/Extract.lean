/-
# Taking operators out of expressions

Every call of an operator in a canonical expression becomes a reference to its result, and the call
itself goes to the list of operator calls. Calls of scalar functions stay. The fields of an operator
read the row and nothing local, and hold no other operator; its parameters are constant.
-/
import RowExpr.Expr.Code
import RowExpr.Expr.Fold
import RowExpr.Operator.Call

namespace RowExpr.Expr

/-- The operator that an expression calls. -/
def operatorCalled? (registry : Registry) : Expr → Option String
  | opCall name _ => (registry.operator? name).map fun _ => name
  | _ => none

/-- The local that an expression is. -/
def localName? : Expr → Option String
  | identifier name => some name
  | _ => none

/-- Accepts a field of an operator. -/
def checkField (registry : Registry) (operator : String) (field : Expr) : Except Cause Unit :=
  match field.subterms.findSome? (operatorCalled? registry) with
  | some inner => .error (.argument (.nestedOperator inner operator))
  | none =>
    match field.subterms.findSome? localName? with
    | some name => .error (.argument (.localInField operator name))
    | none =>
      if field.readsRow then .ok () else .error (.argument (.fieldWithoutColumn operator))

/-- Accepts the number of arguments of an operator. -/
def checkCount (name : String) (o : Operator) (count : Nat) : Except Cause Unit :=
  if count < o.fields then .error (.argument (.missingFields name o.fields count))
  else if o.fields + o.params < count then
    .error (.argument (.extraArguments name (o.fields + o.params) count))
  else .ok ()

/-- The values of constant expressions, from left to right. -/
def foldList (registry : Registry) : List Expr → Except Cause (List Value)
  | [] => .ok []
  | e :: rest => do
    let value ← e.fold registry
    let values ← foldList registry rest
    return value :: values

mutual

/-- Takes the operators out of an expression. -/
def extract (registry : Registry) (window : Option Window) : Expr → Extract Expr
  | opCall name args =>
    match registry.lookup? name with
    | some (.operator o) => do
      Extract.ofExcept (checkCount name o args.length)
      let fields ← extractFields registry window name o.fields args
      let params ← Extract.ofExcept (foldList registry (args.drop o.fields))
      let id ← Extract.push name fields params window
      return opRef id
    | some (.function f) =>
      if f.accepts args.length then do
        let args ← extractList registry window args
        return fnCall name args
      else throw (.argument (.functionArity name args.length))
    | none => throw (.unknownOperator name)
  | array items => do
    let items ← extractList registry window items
    return array items
  | object entries => do
    let entries ← extractEntries registry window entries
    return object entries
  | template head parts => do
    let parts ← extractParts registry window parts
    return template head parts
  | member owner name => do
    let owner ← extract registry window owner
    return member owner name
  | index owner key => do
    let owner ← extract registry window owner
    let key ← extract registry window key
    return index owner key
  | call callee args => do
    let callee ← extract registry window callee
    let args ← extractList registry window args
    return call callee args
  | new callee args => do
    let callee ← extract registry window callee
    let args ← extractList registry window args
    return new callee args
  | unary op argument => do
    let argument ← extract registry window argument
    return unary op argument
  | update op before argument => do
    let argument ← extract registry window argument
    return update op before argument
  | binary op left right => do
    let left ← extract registry window left
    let right ← extract registry window right
    return binary op left right
  | logical op left right => do
    let left ← extract registry window left
    let right ← extract registry window right
    return logical op left right
  | conditional test yes no => do
    let test ← extract registry window test
    let yes ← extract registry window yes
    let no ← extract registry window no
    return conditional test yes no
  | assign op target value => do
    let target ← extract registry window target
    let value ← extract registry window value
    return assign op target value
  | fnCall name args => do
    let args ← extractList registry window args
    return fnCall name args
  | literal value => return literal value
  | identifier name => return identifier name
  | this => return this
  | column name => return column name
  | constant c => return constant c
  | opRef id => return opRef id

/-- The code of the first `count` arguments of an operator, which are its fields. -/
def extractFields (registry : Registry) (window : Option Window) (operator : String) :
    (count : Nat) → List Expr → Extract (List String)
  | count + 1, e :: rest => do
    Extract.ofExcept (checkField registry operator e)
    let field ← extract registry window e
    let fields ← extractFields registry window operator count rest
    return field.code :: fields
  | _, _ => return []

/-- Takes the operators out of expressions, from left to right. -/
def extractList (registry : Registry) (window : Option Window) : List Expr → Extract (List Expr)
  | [] => return []
  | e :: rest => do
    let e ← extract registry window e
    let rest ← extractList registry window rest
    return e :: rest

/-- Takes the operators out of the entries of an object, a computed key before its value. -/
def extractEntries (registry : Registry) (window : Option Window) :
    List (Entry Expr) → Extract (List (Entry Expr))
  | [] => return []
  | ⟨key, value, shorthand⟩ :: rest => do
    let key ← extractKey registry window key
    let value ← extract registry window value
    let rest ← extractEntries registry window rest
    return ⟨key, value, shorthand⟩ :: rest

/-- Takes the operators out of a key. -/
def extractKey (registry : Registry) (window : Option Window) : Key Expr → Extract (Key Expr)
  | .computed key => do
    let key ← extract registry window key
    return .computed key
  | .name name => return .name name
  | .string value raw => return .string value raw
  | .number value raw => return .number value raw

/-- Takes the operators out of the holes of a template. -/
def extractParts (registry : Registry) (window : Option Window) :
    List (Expr × String) → Extract (List (Expr × String))
  | [] => return []
  | (e, text) :: rest => do
    let e ← extract registry window e
    let rest ← extractParts registry window rest
    return (e, text) :: rest

end

end RowExpr.Expr
