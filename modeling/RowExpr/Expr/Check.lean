/-
# Which expressions are accepted

An expression may read columns, locals and constants and call operators, and nothing else: there is
no way from it to the ambient names, to a prototype, or to a method of anything but a column.
-/
import RowExpr.Scope

namespace RowExpr.Expr

/-- Whether an expression is the row parameter, not shadowed by a local. -/
def isRow (names : Names) (locals : Locals) : Expr → Bool
  | identifier name => names.isParam name && !locals.has name
  | _ => false

/-- Whether the value of an expression is always a number. -/
def isNumeric : Expr → Bool
  | literal (.number _ _) => true
  | update _ _ _ => true
  | unary op _ =>
    match op with
    | .negate | .plus | .bitNot => true
    | .not | .typeOf | .void | .delete => false
  | binary op left right =>
    match op with
    | .add => isNumeric left && isNumeric right
    | .subtract | .multiply | .divide | .modulo | .power | .bitAnd | .bitOr | .bitXor | .shiftLeft
    | .shiftRight | .unsignedShiftRight => true
    | .equal | .notEqual | .strictEqual | .strictNotEqual | .lessThan | .greaterThan | .lessEqual
    | .greaterEqual | .memberOf | .instanceOf => false
  | conditional _ yes no => isNumeric yes && isNumeric no
  | _ => false

/-- A name on its own: a local or a constant. -/
def checkName (names : Names) (locals : Locals) (name : String) : Except Cause Unit :=
  if locals.has name || (Constant.ofName? name).isSome then .ok ()
  else if names.isParam name then .error (.rejected (.bareParameter name))
  else if name == names.space then .error (.rejected (.bareNamespace name))
  else if ambientNames.contains name then .error (.rejected (.forbidden name))
  else .error (.reference (.undefined name))

/-- A property: none that leads to a prototype. -/
def checkProperty (name? : Option String) : Except Cause Unit :=
  match name? with
  | some name =>
    if prototypeNames.contains name then .error (.rejected (.forbidden name)) else .ok ()
  | none => .ok ()

/-- A column of the row parameter, whose name has to be known. -/
def checkColumn (names : Names) (name? : Option String) : Except Cause Unit :=
  match name? with
  | some _ => .ok ()
  | none => .error (.rejected (.computedColumn (names.param.getD "")))

/-- A member access that is called, on `owner`: an operator, or a method of a column. -/
def checkMethod (names : Names) (locals : Locals) (callee owner : Expr) : Except Cause Unit := do
  checkProperty callee.property?
  if (callee.operatorName? names.space).isSome then
    match callee.root? with
    | some root =>
      if locals.has root || names.isParam root then
        .error (.rejected (.foreignNamespace names.space root))
      else .ok ()
    | none => .ok ()
  else if owner.isRow names locals then checkColumn names callee.property?
  else .error (.rejected .methodCall)

/-- What may be called: an operator by its bare name or through the namespace, or a method of the
row parameter. -/
def checkCallee (names : Names) (locals : Locals) : Expr → Except Cause Unit
  | identifier name =>
    if locals.has name then .error (.rejected (.localCall name))
    else if names.isParam name || name == names.space then .error (.rejected (.uncallable name))
    else if ambientNames.contains name || (Constant.ofName? name).isSome then
      .error (.rejected (.forbiddenCall name))
    else .ok ()
  | member owner name => checkMethod names locals (member owner name) owner
  | index owner key => checkMethod names locals (index owner key) owner
  | _ => .error (.rejected .computedCall)

/-- The name of an assigned variable: a local that is not constant. -/
def checkVariable (names : Names) (locals : Locals) (name : String) : Except Cause Unit :=
  match locals.kind? name with
  | some .const => .error (.rejected (.constantTarget name))
  | some _ => .ok ()
  | none => do
    checkName names locals name
    .error (.rejected (.unassignable name))

/-- The key of an object entry, unless it is computed. -/
def checkEntryName (name? : Option String) : Except Cause Unit :=
  if name? = some "__proto__" then .error (.rejected .prototypeKey) else .ok ()

mutual

/-- Accepts an expression at a place where `locals` can be seen. -/
def check (names : Names) (locals : Locals) : Expr → Except Cause Unit
  | literal _ => .ok ()
  | array items => checkList names locals items
  | object entries => checkEntries names locals entries
  | template _ parts => checkParts names locals parts
  | identifier name => checkName names locals name
  | this => .error (.rejected .thisValue)
  | member owner name => do
    checkProperty (some name)
    if owner.isRow names locals then .ok () else check names locals owner
  | index owner key => do
    checkProperty key.keyName?
    if owner.isRow names locals then checkColumn names key.keyName?
    else
      check names locals owner
      if key.keyName?.isSome then .ok ()
      else if key.isNumeric then check names locals key
      else .error (.rejected .dynamicKey)
  | call callee args => do
    checkCallee names locals callee
    checkList names locals args
  | new _ _ => .error (.rejected .construction)
  | unary op argument =>
    if op = .delete then .error (.rejected .deletion) else check names locals argument
  | update _ _ argument => checkTarget names locals argument
  | binary _ left right => do
    check names locals left
    check names locals right
  | logical _ left right => do
    check names locals left
    check names locals right
  | conditional test yes no => do
    check names locals test
    check names locals yes
    check names locals no
  | assign _ target value => do
    checkTarget names locals target
    check names locals value
  | column _ | constant _ | opCall _ _ | opRef _ | fnCall _ _ => .ok ()

/-- Accepts the target of an assignment: a local that is not constant, or a part of one. -/
def checkTarget (names : Names) (locals : Locals) : Expr → Except Cause Unit
  | identifier name => checkVariable names locals name
  | member owner name => do
    checkProperty (some name)
    match owner.root? with
    | some root =>
      if locals.has root then check names locals owner
      else if names.isParam root then .error (.rejected .rowTarget)
      else
        check names locals owner
        .error (.rejected .foreignTarget)
    | none =>
      check names locals owner
      .error (.rejected .foreignTarget)
  | index owner key => do
    checkProperty key.keyName?
    match owner.root? with
    | some root =>
      if locals.has root then
        check names locals owner
        if key.keyName?.isSome then .ok ()
        else if key.isNumeric then check names locals key
        else .error (.rejected .dynamicKey)
      else if names.isParam root then .error (.rejected .rowTarget)
      else
        check names locals owner
        .error (.rejected .foreignTarget)
    | none =>
      check names locals owner
      .error (.rejected .foreignTarget)
  | _ => .error (.rejected .invalidTarget)

/-- Accepts expressions from left to right. -/
def checkList (names : Names) (locals : Locals) : List Expr → Except Cause Unit
  | [] => .ok ()
  | e :: rest => do
    check names locals e
    checkList names locals rest

/-- Accepts the entries of an object. -/
def checkEntries (names : Names) (locals : Locals) : List (Entry Expr) → Except Cause Unit
  | [] => .ok ()
  | ⟨.computed key, value, _⟩ :: rest => do
    check names locals key
    check names locals value
    checkEntries names locals rest
  | ⟨key, value, _⟩ :: rest => do
    checkEntryName key.staticName?
    check names locals value
    checkEntries names locals rest

/-- Accepts the holes of a template. -/
def checkParts (names : Names) (locals : Locals) : List (Expr × String) → Except Cause Unit
  | [] => .ok ()
  | (e, _) :: rest => do
    check names locals e
    checkParts names locals rest

end

end RowExpr.Expr
