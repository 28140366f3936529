/-
# Operator calls

What is left of an operator once it is taken out of the row code: the code of its fields, the
values of its parameters, and the number under which the row code refers to its result.
-/
import RowExpr.Error
import RowExpr.Value.Basic
import RowExpr.Window

namespace RowExpr

/-- A call of an operator, computed before the rows. -/
structure OperatorCall where
  name : String
  /-- The code of each field. -/
  fields : List String
  params : List Value
  /-- The place of the call in the list of all of them. -/
  id : Nat
  /-- The window of the definition that the call stands in. -/
  window : Option Window

/-- A computation that may add operator calls and may fail; the calls that it added before a
failure stay. -/
abbrev Extract := ExceptT Cause (StateM (List OperatorCall))

/-- A computation that adds no calls. -/
def Extract.ofExcept {α : Type} (result : Except Cause α) : Extract α := ExceptT.mk (pure result)

/-- Adds a call and gives its number. -/
def Extract.push (name : String) (fields : List String) (params : List Value)
    (window : Option Window) : Extract Nat := do
  let calls ← get
  let id := calls.length
  set (calls ++ [⟨name, fields, params, id, window⟩])
  return id

end RowExpr
