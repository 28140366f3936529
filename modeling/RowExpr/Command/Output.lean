/-
# Compiled definitions as JSON

The operator calls and the code of the definitions, as one object.
-/
import RowExpr.Compiler
import RowExpr.Json

namespace RowExpr

namespace Value

mutual

/-- A value as JSON; what JSON does not have becomes null. -/
def toJson : Value → Json
  | undefined => .null
  | null => .null
  | boolean b => .boolean b
  | number x => Json.ofFloat x
  | string s => .string s
  | array items => .array (itemsToJson items)
  | object members => .object (membersToJson members)

/-- The items of an array as JSON. -/
def itemsToJson : List Value → List Json
  | [] => []
  | item :: rest => toJson item :: itemsToJson rest

/-- The members of an object as JSON. -/
def membersToJson : List (String × Value) → List (String × Json)
  | [] => []
  | (name, value) :: rest => (name, toJson value) :: membersToJson rest

end

end Value

/-- The members that a window adds to an operator call; an open side of the frame becomes null. -/
def Window.toMembers (w : Window) : List (String × Json) :=
  [("frame", .array [Json.ofFloat w.frame.preceding, Json.ofFloat w.frame.following]),
    ("peers", .boolean w.peers)]

/-- An operator call as JSON. -/
def OperatorCall.toJson (call : OperatorCall) : Json :=
  .object <|
    [("name", .string call.name),
      ("fields", .array (call.fields.map .string)),
      ("params", .array (call.params.map Value.toJson)),
      ("id", .number (Number.ofInt call.id))]
    ++ (call.window.map Window.toMembers).getD []

/-- Compiled definitions as JSON. -/
def Compiled.toJson (compiled : Compiled String) : Json :=
  .object
    [("ops", .array (compiled.ops.map OperatorCall.toJson)),
      ("values", .object (compiled.values.map fun (name, code) => (name, .string code)))]

end RowExpr
