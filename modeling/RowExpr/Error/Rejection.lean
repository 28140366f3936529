/-
# Why a row function is refused

The reasons for which a well-formed row function is not accepted, and their wording.
-/
import RowExpr.Number.Format

namespace RowExpr

/-- The loops of the language, none of which is accepted. -/
inductive LoopKind where
  | steps
  | values
  | keys
  | while_
  | doWhile
deriving DecidableEq, Repr

/-- The spelling of a kind of loop. -/
def LoopKind.spelling : LoopKind → String
  | steps => "for"
  | values => "for...of"
  | keys => "for...in"
  | while_ => "while"
  | doWhile => "do...while"

/-- A reason for which a row function, or the window around it, is refused. -/
inductive Rejection where
  | reservedName (name : String)
  | shadowsGlobal (name : String)
  | redeclared (name : String)
  | breakOutsideSwitch
  | continues
  | loop (kind : LoopKind)
  | prototypeKey
  | thisValue
  | construction
  | deletion
  | bareParameter (name : String)
  | bareNamespace (name : String)
  | forbidden (name : String)
  | computedColumn (param : String)
  | dynamicKey
  | localCall (name : String)
  | uncallable (name : String)
  | forbiddenCall (name : String)
  | foreignNamespace (space root : String)
  | methodCall
  | computedCall
  | constantTarget (name : String)
  | unassignable (name : String)
  | rowTarget
  | foreignTarget
  | invalidTarget
  | frameNotANumber
  | frameWithoutRow (preceding following : Float)
  /-- A reason in the words of whoever raised it. -/
  | described (text : String)

/-- The wording of a reason. -/
def Rejection.message : Rejection → String
  | reservedName name => "cannot declare '" ++ name ++ "': the name is reserved"
  | shadowsGlobal name => "cannot declare '" ++ name ++ "': shadows a global binding"
  | redeclared name => "'" ++ name ++ "' has already been declared"
  | breakOutsideSwitch => "'break' is only allowed inside a switch"
  | continues => "'continue' is not supported: loops are not allowed"
  | loop kind => "'" ++ kind.spelling ++ "' loops are not supported"
  | prototypeKey => "'__proto__' keys are not allowed in object literals"
  | thisValue => "'this' is not accessible in expressions"
  | construction => "object construction with 'new' is not allowed"
  | deletion => "'delete' is not allowed"
  | bareParameter name => "row parameter '" ++ name ++ "' may only be used to access columns"
  | bareNamespace name =>
    "operator namespace '" ++ name ++ "' may only be used to call operators"
  | forbidden name => "access to '" ++ name ++ "' is not permitted"
  | computedColumn param => "columns of '" ++ param ++ "' must be accessed with a constant name"
  | dynamicKey => "computed member keys must be constant or numeric"
  | localCall name => "local value '" ++ name ++ "' cannot be invoked"
  | uncallable name => "'" ++ name ++ "' cannot be invoked"
  | forbiddenCall name => "calling '" ++ name ++ "' is not permitted"
  | foreignNamespace space root =>
    "operators must be invoked through '" ++ space ++ "', not through '" ++ root ++ "'"
  | methodCall =>
    "method invocation is only permitted on the operator namespace or the row parameter"
  | computedCall => "only operators may be invoked"
  | constantTarget name => "cannot assign to constant '" ++ name ++ "'"
  | unassignable name => "cannot assign to '" ++ name ++ "'"
  | rowTarget => "row data is read-only"
  | foreignTarget => "assignment is only permitted to local bindings"
  | invalidTarget => "invalid assignment target"
  | frameNotANumber => "window frame bounds must be numbers"
  | frameWithoutRow preceding following =>
    "window frame [" ++ Number.format preceding ++ ", " ++ Number.format following
      ++ "] must contain the current row"
  | described text => text

/-- A reason for which a name stands for nothing. -/
inductive ReferenceFault where
  | undefined (name : String)
  /-- A reason in the words of whoever raised it. -/
  | described (text : String)

/-- The wording of a reason. -/
def ReferenceFault.message : ReferenceFault → String
  | undefined name => "'" ++ name ++ "' is not defined"
  | described text => text

end RowExpr
