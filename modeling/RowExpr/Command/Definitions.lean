/-
# Definitions as JSON

A set of definitions is an object from names to definitions. A definition is the text of a row
function, or an object with that text and the settings of its window, where null leaves a side of
the frame open.
-/
import RowExpr.Definition
import RowExpr.Json

namespace RowExpr

/-- A reason for which a JSON value is not a set of definitions. -/
inductive DefinitionFault where
  | notAnObject
  | definitionType (name : String)
  | missingFunction (name : String)
  | frameShape (name : String)
  | boundType (name : String)
  | peersType (name : String)
deriving DecidableEq, Repr

/-- The wording of a reason. -/
def DefinitionFault.message : DefinitionFault → String
  | notAnObject => "expected a JSON object mapping names to expressions"
  | definitionType name => "'" ++ name ++ "' must be a string or an object"
  | missingFunction name => "'" ++ name ++ "' needs a \"function\" string"
  | frameShape name => "'" ++ name ++ "' frame must be a two-element array"
  | boundType name => "'" ++ name ++ "' frame bounds must be numbers or null"
  | peersType name => "'" ++ name ++ "' peers must be a boolean"

/-- A bound of the frame of the definition `name`; null is the bound `unbounded`. -/
def Frame.boundOfJson (name : String) (unbounded : Float) : Json → Except DefinitionFault Float
  | .null => .ok unbounded
  | .number x => .ok x
  | _ => .error (.boundType name)

/-- The frame of the definition `name`. -/
def Frame.ofJson (name : String) : Option Json → Except DefinitionFault Frame
  | none | some .null => .ok .upToCurrent
  | some (.array [first, last]) => do
    let preceding ← boundOfJson name (-Number.infinity) first
    let following ← boundOfJson name Number.infinity last
    return ⟨preceding, following⟩
  | some _ => .error (.frameShape name)

/-- Whether the window of the definition `name` has peers. -/
def Window.peersOfJson (name : String) : Option Json → Except DefinitionFault Bool
  | none | some .null => .ok true
  | some (.boolean b) => .ok b
  | some _ => .error (.peersType name)

/-- The definition `name`. -/
def Definition.ofJson (name : String) : Json → Except DefinitionFault Definition
  | .string function => .ok ⟨function, none⟩
  | .object members =>
    match Table.get? "function" members with
    | some (.string function) => do
      let frame ← Frame.ofJson name (Table.get? "frame" members)
      let peers ← Window.peersOfJson name (Table.get? "peers" members)
      return ⟨function, some ⟨frame, peers⟩⟩
    | _ => .error (.missingFunction name)
  | _ => .error (.definitionType name)

/-- The definitions of the members of an object. -/
def Definitions.ofMembers : List (String × Json) → Except DefinitionFault Definitions
  | [] => .ok []
  | (name, value) :: rest => do
    let d ← Definition.ofJson name value
    let defs ← ofMembers rest
    return (name, d) :: defs

/-- A set of definitions. -/
def Definitions.ofJson : Json → Except DefinitionFault Definitions
  | .object members => ofMembers members
  | _ => .error .notAnObject

end RowExpr
